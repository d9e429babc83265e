import SceneLogic.Proofs.Json.Depth

/-!
# What is read from a record

An object whose keys are fields in the order of their declaration is read as the record of
its members.  A field is read from its own member, and what is read is readable.

## Main statements

* `Record.read?_object` — the members of an object are its record.
* `Record.optional_of_member`, `Record.lenient_of_member` — a field that may be left out.
* `Record.readable_of_read?` — an object is readable if its fields are.
-/

namespace SceneLogic.Json

namespace Document

theorem lookup_member (written : Bool) (key : String) (item : Document) (field : String) :
    (member written key item).lookup field =
      if written = true ∧ field = key then some item else none := by
  cases written <;> simp [member, lookup_entry]

theorem keys_member_sublist (written : Bool) (key : String) (item : Document) :
    ((member written key item).map (·.1)).Sublist [key] := by
  cases written <;> simp [member]

theorem readable_of_string? {document : Document} {s : String}
    (hs : document.string? = some s) : document.Readable := by
  cases document with
  | string s => rfl
  | _ => cases hs

/-- A list is readable if what can be read of it is. -/
theorem readable_of_list? {read : Document → Option α} {documents : List Document}
    {items : List α} (hitems : (array documents).list? read = some items)
    (hread : ∀ document ∈ documents, ∀ item, read document = some item → document.Readable) :
    (array documents).Readable := by
  rw [Readable, readable, readableItems_iff]
  intro document hdocument
  obtain ⟨item, -, hitem⟩ := exists_of_mapM_eq_some hitems hdocument
  exact hread document hdocument item hitem

theorem list?_map_eq_some {read : Document → Option α} {write : α → Document} {items : List α}
    (hread : ∀ item ∈ items, read (write item) = some item) :
    (array (items.map write)).list? read = some items :=
  mapM_map_eq_some hread

theorem mem_of_lookup {field : String} {document : Document}
    {members : List (String × Document)} (hlookup : members.lookup field = some document) :
    (field, document) ∈ members := by
  obtain ⟨before, after, rfl, -⟩ := List.lookup_eq_some_iff.1 hlookup
  simp

end Document

namespace Record

variable {fields : List String} {members : List (String × Document)} {record : Record}
  {field : String} {document : Document} {read : Document → Option α}

/-- The members of an object are its record, if their keys are fields in order. -/
theorem read?_object (hkeys : (members.map (·.1)).Sublist fields) (hfields : fields.Nodup) :
    read? fields (.object members) = some members := by
  have hknown : members.filter (·.1 ∈ fields) = members := by
    rw [List.filter_eq_self]
    intro member hmember
    exact decide_eq_true (hkeys.mem (List.mem_map_of_mem hmember))
  simp only [read?, hknown]
  rw [if_pos (hfields.sublist hkeys)]

/-! ## One field -/

section

variable {item canonical : Document} {value missing : α} {written : Bool}

theorem required_of_lookup (hlookup : record.lookup field = some item)
    (hread : read item = some value) : record.required field read = some value := by
  rw [required, hlookup, Option.bind_some, hread]

theorem optional_of_lookup (hlookup : record.lookup field = some item)
    (hread : read item = some value) (missing : α) :
    record.optional field read missing = some value := by
  rw [optional, hlookup]
  exact hread

/-- A field that is left out when it has the value that it has when it is missing. -/
theorem optional_of_member
    (hlookup : record.lookup field = if written = true then some item else none)
    (hread : written = true → read item = some value)
    (hmissing : written = false → value = missing) :
    record.optional field read missing = some value := by
  rw [optional, hlookup]
  cases written with
  | true => exact hread rfl
  | false => exact congrArg some (hmissing rfl).symm

theorem lenient_of_lookup (hlookup : record.lookup field = some item)
    (hcanonical : item.canonical? = some canonical) (hread : read canonical = some value)
    (missing : α) : record.lenient field read missing = some value := by
  rw [lenient, hlookup]
  simp [hcanonical, hread]

theorem lenient_of_member
    (hlookup : record.lookup field = if written = true then some item else none)
    (hcanonical : item.canonical? = some canonical)
    (hread : written = true → read canonical = some value)
    (hmissing : written = false → value = missing) :
    record.lenient field read missing = some value := by
  cases written with
  | true => exact lenient_of_lookup hlookup hcanonical (hread rfl) missing
  | false =>
    rw [lenient, hlookup]
    exact congrArg some (hmissing rfl).symm

end

/-! ## Deep records -/

/-- Fields nest less deep than their record. -/
theorem depth_lt_of_lookup {whole : Document} (hread : read? fields whole = some record)
    (hlookup : record.lookup field = some document) : document.depth < whole.depth := by
  cases whole with
  | object members =>
    simp only [read?] at hread
    split at hread
    next =>
      cases hread
      exact Document.depth_lt_object (List.mem_filter.1 (Document.mem_of_lookup hlookup)).1
    next => cases hread
  | array items =>
    simp only [read?] at hread
    split at hread
    next =>
      cases hread
      exact Document.depth_lt_array (List.of_mem_zip (Document.mem_of_lookup hlookup)).2
    next => cases hread
  | _ => cases hread

/-- Only an object or an array gives a record. -/
theorem depth_pos_of_read? {whole : Document} (hread : read? fields whole = some record) :
    0 < whole.depth := by
  cases whole with
  | object | array => exact Nat.succ_pos _
  | _ => cases hread

/-- An optional field is read from its member or has its own value. -/
theorem optional_eq_some {value missing : α}
    (hoptional : record.optional field read missing = some value) :
    value = missing ∨ ∃ document, record.lookup field = some document ∧
      read document = some value := by
  rw [optional] at hoptional
  split at hoptional
  next => exact .inl (Option.some.inj hoptional).symm
  next document hlookup => exact .inr ⟨document, hlookup, hoptional⟩

/-! ## Readable records -/

theorem readable_of_required {value : α} (hrequired : record.required field read = some value)
    (hlookup : record.lookup field = some document)
    (hread : read document = some value → document.Readable) : document.Readable := by
  rw [required, hlookup] at hrequired
  exact hread hrequired

theorem readable_of_optional {value missing : α}
    (hoptional : record.optional field read missing = some value)
    (hlookup : record.lookup field = some document)
    (hread : read document = some value → document.Readable) : document.Readable := by
  rw [optional, hlookup] at hoptional
  exact hread hoptional

/-- An object of nothing but fields is readable if all of its fields are. -/
theorem readable_of_read? (hkeys : ∀ member ∈ members, member.1 ∈ fields)
    (hread : read? fields (.object members) = some record)
    (hrecord : ∀ field ∈ fields, ∀ document, record.lookup field = some document →
      document.Readable) : (Document.object members).Readable := by
  have hknown : members.filter (·.1 ∈ fields) = members := by
    rw [List.filter_eq_self]
    exact fun member hmember => decide_eq_true (hkeys member hmember)
  simp only [read?, hknown] at hread
  split at hread
  next hnodup =>
    cases hread
    rw [Document.Readable, Document.readable, Document.readableMembers_iff]
    intro member hmember
    exact hrecord member.1 (hkeys member hmember) member.2
      ((lookup_eq_some_iff_mem hnodup).2 hmember)
  next => cases hread

end Record

end SceneLogic.Json

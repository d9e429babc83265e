import SceneLogic.Proofs.Json.Fields

/-!
# Reading the value of a document

Every readable document denotes a value, in which the members of the objects stand in
order and each key once.  What is read from the document is read from its value too: a key
that is repeated is no field, or the record was not read in the first place, and a field
that is read leniently is read from its value anyway.

## Main definitions

* `Document.Alike` — a document in place of another: the same one or its value.
* `Document.Steady` — what is read from a document is read from its value.
* `Record.AlikeAt` — records that are alike at one field.

## Main statements

* `Value.exists_ofDocument?` — a readable document denotes a value.
* `Document.Gives.of_canonical?` — the record of a value.
* `Record.Lists.of_alike` — the list under a field of a record that is alike there.
-/

namespace SceneLogic.Json

namespace Document

/-! ## Readable documents denote values -/

mutual

/-- A readable document denotes a value. -/
theorem exists_canonical? : ∀ {document : Document}, document.readable = true →
    ∃ value, document.canonical? = some value
  | .null, _ | .bool _, _ | .number _, _ | .string _, _ => ⟨_, rfl⟩
  | .array items, h => by
    rw [readable] at h
    obtain ⟨values, hvalues⟩ := exists_canonicalItems? h
    exact ⟨array values, by rw [canonical?, hvalues, Option.map_some]⟩
  | .object members, h => by
    rw [readable] at h
    obtain ⟨values, hvalues⟩ := exists_canonicalMembers? [] h
    exact ⟨object values, by rw [canonical?, hvalues, Option.map_some]⟩
  | .unreadable, h => by cases h

theorem exists_canonicalItems? : ∀ {items : List Document}, readableItems items = true →
    ∃ values, canonicalItems? items = some values
  | [], _ => ⟨[], rfl⟩
  | item :: items, h => by
    rw [readableItems, Bool.and_eq_true] at h
    obtain ⟨value, hvalue⟩ := exists_canonical? h.1
    obtain ⟨values, hvalues⟩ := exists_canonicalItems? h.2
    exact ⟨value :: values, by rw [canonicalItems?, hvalue, hvalues]; rfl⟩

theorem exists_canonicalMembers? : ∀ {members : List (String × Document)}
    (sorted : List (String × Document)), readableMembers members = true →
    ∃ values, canonicalMembers? sorted members = some values
  | [], sorted, _ => ⟨sorted, rfl⟩
  | (key, item) :: members, sorted, h => by
    rw [readableMembers, Bool.and_eq_true] at h
    obtain ⟨value, hvalue⟩ := exists_canonical? h.1
    obtain ⟨values, hvalues⟩ :=
      exists_canonicalMembers? (NameMap.insertEntry key value sorted) h.2
    exact ⟨values, by rw [canonicalMembers?, hvalue]; exact hvalues⟩

end

end Document

namespace Value

/-- The value of a document has its canonical form. -/
theorem ofDocument?_eq_some_iff {document : Document} {value : Value} :
    ofDocument? document = some value ↔ document.canonical? = some value.document := by
  obtain ⟨found, hcanonical⟩ := value
  unfold ofDocument?
  split
  next other hother => simp [hother]
  next hnone => simp [hnone]

theorem exists_ofDocument? {document : Document} (hreadable : document.readable = true) :
    ∃ value, ofDocument? document = some value := by
  obtain ⟨value, hvalue⟩ := Document.exists_canonical? hreadable
  exact ⟨⟨value, Document.canonical_of_canonical? hvalue⟩, ofDocument?_eq_some_iff.2 hvalue⟩

end Value

namespace Document

/-! ## The parts of a value -/

theorem canonicalItems?_eq_mapM (items : List Document) :
    canonicalItems? items = items.mapM canonical? := by
  induction items with
  | nil => rfl
  | cons item items ih => rw [canonicalItems?, ih, List.mapM_cons]

/-- The value of an array is the array of the values. -/
theorem canonical?_array_eq_some_iff {items : List Document} {value : Document} :
    (array items).canonical? = some value ↔ ∃ values, value = array values ∧
      List.Forall₂ (fun item value => item.canonical? = some value) items values := by
  simp only [canonical?, canonicalItems?_eq_mapM, Option.map_eq_some_iff, mapM_eq_some_iff,
    and_comm, eq_comm]

/-- A key that is not repeated has the value of its member. -/
theorem lookup_of_canonicalMembers? {sorted members values : List (String × Document)}
    {key : String} (hvalues : canonicalMembers? sorted members = some values)
    (honce : (members.map (·.1)).count key ≤ 1) :
    values.lookup key = (members.lookup key).elim (sorted.lookup key) canonical? := by
  induction members generalizing sorted with
  | nil =>
    cases hvalues
    rfl
  | cons member members ih =>
    obtain ⟨name, item⟩ := member
    simp only [canonicalMembers?, Option.bind_eq_bind, Option.bind_eq_some_iff] at hvalues
    obtain ⟨value, hvalue, hvalues⟩ := hvalues
    rw [List.map_cons, List.count_cons] at honce
    rw [ih hvalues (by omega), NameMap.lookup_insertEntry, lookup_entry]
    by_cases hname : key = name
    · subst hname
      simp only [BEq.rfl, if_true] at honce
      have hkey : key ∉ members.map (·.1) := List.count_eq_zero.1 (by omega)
      have hnone : members.lookup key = none := List.lookup_eq_none_iff.2 fun member hmember =>
        bne_iff_ne.2 fun heq => hkey (heq ▸ List.mem_map_of_mem hmember)
      rw [hnone, if_pos rfl, if_pos rfl, Option.elim_none, Option.elim_some, hvalue]
    · rw [if_neg hname, if_neg hname]

/-! ## Documents in place of others -/

/-- The second document stands in place of the first: it is the same or its value. -/
inductive Alike : Document → Document → Prop
  | same (document : Document) : Alike document document
  | value {document value : Document} (hvalue : document.canonical? = some value) :
    Alike document value

theorem Alike.canonical?_eq {document other : Document} (halike : Alike document other) :
    other.canonical? = document.canonical? := by
  cases halike with
  | same => rfl
  | value hvalue => rw [hvalue, canonical?_of_canonical (canonical_of_canonical? hvalue)]

/-- What is read from a document is read from its value. -/
def Steady (gives : Document → α → Prop) : Prop :=
  ∀ ⦃document value result⦄, document.canonical? = some value → gives document result →
    gives value result

theorem Steady.of_alike {gives : Document → α → Prop} (hsteady : Steady gives)
    {document other : Document} {result : α} (halike : Alike document other)
    (hgives : gives document result) : gives other result := by
  cases halike with
  | same => exact hgives
  | value hvalue => exact hsteady hvalue hgives

theorem steady_string? : Steady fun document s => document.string? = some s := by
  intro document value s hvalue hs
  cases document with
  | string => exact Option.some.inj hvalue ▸ hs
  | _ => cases hs

theorem Steady.forall₂ {gives : Document → α → Prop} (hsteady : Steady gives)
    {items values : List Document} {results : List α}
    (hvalues : List.Forall₂ (fun item value => item.canonical? = some value) items values)
    (hitems : List.Forall₂ gives items results) : List.Forall₂ gives values results := by
  induction hvalues generalizing results with
  | nil => exact hitems
  | cons hvalue _ ih =>
    cases hitems with
    | cons hitem hitems => exact .cons (hsteady hvalue hitem) (ih hitems)

theorem Steady.list? {read : Document → Option α}
    (hsteady : Steady fun item result => read item = some result) :
    Steady fun document results => document.list? read = some results := by
  intro document value results hvalue hresults
  obtain ⟨items, rfl, hitems⟩ := list?_eq_some_iff.1 hresults
  obtain ⟨values, rfl, hvalues⟩ := canonical?_array_eq_some_iff.1 hvalue
  exact list?_eq_some_iff.2 ⟨values, rfl, hsteady.forall₂ hvalues hitems⟩

end Document

/-! ## Records in place of others -/

namespace Record

open Document

/-- At the field the second record has what stands in place of what the first has. -/
def AlikeAt (record other : Record) (field : String) : Prop :=
  Option.Rel Alike (record.lookup field) (other.lookup field)

variable {record other : Record} {field : String}

theorem AlikeAt.of_lookup (hlookup : other.lookup field = record.lookup field) :
    record.AlikeAt other field := by
  rw [AlikeAt, hlookup]
  cases record.lookup field with
  | none => exact .none
  | some document => exact .some (.same document)

theorem AlikeAt.lookup_eq_some {document : Document} (halike : record.AlikeAt other field)
    (hlookup : record.lookup field = some document) :
    ∃ found, other.lookup field = some found ∧ Alike document found := by
  rw [AlikeAt, hlookup] at halike
  generalize other.lookup field = found at halike
  cases halike with
  | some halike => exact ⟨_, rfl, halike⟩

theorem AlikeAt.lookup_eq_none (halike : record.AlikeAt other field)
    (hlookup : record.lookup field = none) : other.lookup field = none := by
  rw [AlikeAt, hlookup] at halike
  generalize other.lookup field = found at halike
  cases halike
  rfl

theorem AlikeAt.lenient (halike : record.AlikeAt other field) (read : Document → Option α)
    (missing : α) : other.lenient field read missing = record.lenient field read missing := by
  cases hlookup : record.lookup field with
  | none => rw [Record.lenient, Record.lenient, hlookup, halike.lookup_eq_none hlookup]
  | some document =>
    obtain ⟨found, hfound, hdocument⟩ := halike.lookup_eq_some hlookup
    rw [Record.lenient, Record.lenient, hlookup, hfound]
    simp only [hdocument.canonical?_eq]

theorem AlikeAt.required {read : Document → Option α} {result : α}
    (halike : record.AlikeAt other field)
    (hsteady : Steady fun document result => read document = some result)
    (hread : record.required field read = some result) :
    other.required field read = some result := by
  obtain ⟨document, hlookup, hdocument⟩ := Option.bind_eq_some_iff.1 hread
  obtain ⟨found, hfound, halike⟩ := halike.lookup_eq_some hlookup
  exact required_of_lookup hfound (hsteady.of_alike halike hdocument)

theorem AlikeAt.optional {read : Document → Option α} {result missing : α}
    (halike : record.AlikeAt other field)
    (hsteady : Steady fun document result => read document = some result)
    (hread : record.optional field read missing = some result) :
    other.optional field read missing = some result := by
  cases hlookup : record.lookup field with
  | none =>
    rw [Record.optional, hlookup] at hread
    rw [Record.optional, halike.lookup_eq_none hlookup, hread]
  | some document =>
    rw [Record.optional, hlookup] at hread
    obtain ⟨found, hfound, halike⟩ := halike.lookup_eq_some hlookup
    exact optional_of_lookup hfound (hsteady.of_alike halike hread) missing

/-- A list under a field stays where the records are alike. -/
theorem Lists.of_alike {gives : Document → α → Prop} {results : List α}
    (hlists : record.Lists field gives results) (halike : record.AlikeAt other field)
    (hsteady : Steady gives) : other.Lists field gives results := by
  cases hlists with
  | missing hlookup => exact .missing (halike.lookup_eq_none hlookup)
  | given hlookup hitems =>
    obtain ⟨found, hfound, halike⟩ := halike.lookup_eq_some hlookup
    cases halike with
    | same => exact .given hfound hitems
    | value hvalue =>
      obtain ⟨values, rfl, hvalues⟩ := canonical?_array_eq_some_iff.1 hvalue
      exact .given hfound (hsteady.forall₂ hvalues hitems)

theorem alikeAt_zip {items values : List Document} (fields : List String)
    (hvalues : List.Forall₂ (fun item value => item.canonical? = some value) items values) :
    AlikeAt (fields.zip items) (fields.zip values) field := by
  induction hvalues generalizing fields with
  | nil => exact .of_lookup rfl
  | cons hvalue _ ih =>
    cases fields with
    | nil => exact .of_lookup rfl
    | cons first fields =>
      rw [List.zip_cons_cons, List.zip_cons_cons, AlikeAt, lookup_entry, lookup_entry]
      split
      next => exact .some (.value hvalue)
      next => exact ih fields

end Record

/-- **The record of a value** has the values of the fields. -/
theorem Document.Gives.of_canonical? {fields : List String} {document value : Document}
    {record : Record} (hgives : document.Gives fields record)
    (hvalue : document.canonical? = some value) :
    ∃ other, value.Gives fields other ∧ ∀ field ∈ fields, record.AlikeAt other field := by
  cases document with
  | object members =>
    simp only [canonical?, Option.map_eq_some_iff] at hvalue
    obtain ⟨values, hvalues, rfl⟩ := hvalue
    have hnodup :=
      nodup_keys (canonicalMembers_of_canonicalMembers? .nil trivial hvalues).1
    rw [gives_object_iff] at hgives
    refine ⟨values, gives_object_iff.2 fun field _ =>
      ⟨List.nodup_iff_count_le_one.1 hnodup field, rfl⟩, fun field hfield => ?_⟩
    obtain ⟨honce, hrecord⟩ := hgives field hfield
    rw [Record.AlikeAt, ← hrecord, lookup_of_canonicalMembers? hvalues honce]
    cases hlookup : members.lookup field with
    | none => exact .none
    | some item =>
      have hreadable := readableMembers_iff.1 (readableMembers_of_canonicalMembers? hvalues)
      obtain ⟨found, hfound⟩ := exists_canonical? (hreadable _ (mem_of_lookup hlookup))
      rw [Option.elim_some, hfound]
      exact .some (.value hfound)
  | array items =>
    obtain ⟨values, rfl, hvalues⟩ := canonical?_array_eq_some_iff.1 hvalue
    rw [gives_array_iff] at hgives
    refine ⟨fields.zip values, gives_array_iff.2 ⟨hvalues.length_eq ▸ hgives.1, fun _ _ => rfl⟩,
      fun field hfield => ?_⟩
    rw [Record.AlikeAt, ← hgives.2 field hfield]
    exact Record.alikeAt_zip fields hvalues
  | _ => exact absurd hgives.depth_pos (Nat.lt_irrefl 0)

end SceneLogic.Json

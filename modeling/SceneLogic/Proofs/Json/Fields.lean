import Mathlib.Data.List.Forall2
import Mathlib.Data.List.Nodup
import SceneLogic.Proofs.Json.Record

/-!
# The fields of a document

What is read from a record depends on the documents under its fields.  It does not matter
whether the record is written as an object or as an array, in which order the members stand
and what else there is.  Here a document is said to give a record when they agree in what
stands under the fields, and it is shown when an object, an array and the variant behind a
tag do so.

## Main definitions

* `Document.Gives` — the fields of a document are those of a record.
* `Record.Lists` — a list under a field, item by item.

## Main statements

* `Document.gives_object_iff`, `Document.gives_array_iff` — the two forms of a record.
* `Document.gives_cons_iff` — the tag of a variant is a field in front of the others.
* `Document.Gives.depth_lt` — a field nests less deep than the document that gives it.
* `Record.optional_list?_eq_some_iff` — what the list under a field is read as.
-/

namespace SceneLogic.Json

/-! ## Look-ups of fields -/

section

variable {fields : List String} {field name : String} {items : List Document}
  {members : List (String × Document)} {change : Document → Document}

theorem lookup_filter_key (keep : String → Bool) (hkeep : keep field = true) :
    (members.filter (keep ·.1)).lookup field = members.lookup field := by
  induction members with
  | nil => rfl
  | cons member members ih =>
    rw [List.filter_cons, lookup_entry, ← ih]
    split
    next => rw [lookup_entry]
    next hdropped =>
      have hne : field ≠ member.1 := fun heq => hdropped (heq ▸ hkeep)
      rw [if_neg hne]

theorem keys_filter (keep : String → Bool) :
    (members.filter (keep ·.1)).map (·.1) = (members.map (·.1)).filter keep :=
  List.filter_map.symm

theorem count_keys_filter (keep : String → Bool) (hkeep : keep field = true) :
    ((members.filter (keep ·.1)).map (·.1)).count field = (members.map (·.1)).count field := by
  rw [keys_filter, List.count_filter hkeep]

/-- The fields among some keys are different if none of them is repeated. -/
theorem nodup_keys_filter_iff :
    ((members.filter (·.1 ∈ fields)).map (·.1)).Nodup ↔
      ∀ field ∈ fields, (members.map (·.1)).count field ≤ 1 := by
  rw [keys_filter (· ∈ fields), List.nodup_iff_count_le_one]
  constructor
  · intro h field hfield
    have hcount := h field
    rwa [List.count_filter (by simpa using hfield)] at hcount
  · intro h field
    by_cases hfield : field ∈ fields
    · rw [List.count_filter (by simpa using hfield)]
      exact h field hfield
    · rw [List.count_eq_zero.2 (by simp [hfield])]
      exact Nat.zero_le _

/-- Keys in ascending order are different. -/
theorem nodup_keys (hascending : NameMap.Ascending members) : (members.map (·.1)).Nodup := by
  rw [List.Nodup, List.pairwise_map]
  refine hascending.imp fun {first second} hlt (heq : first.1 = second.1) => ?_
  exact String.lt_irrefl second.1 (heq ▸ hlt)

end

namespace Document

/-! ## The record of a document -/

/-- The document gives the record: it has the form of a record with these fields, and each
field has what it has in the record. -/
def Gives (fields : List String) (document : Document) (record : Record) : Prop :=
  ∃ found, Record.read? fields document = some found ∧
    ∀ field ∈ fields, found.lookup field = record.lookup field

variable {fields : List String} {field : String} {document : Document} {record other : Record}

theorem Gives.of_read? {found : Record} (hread : Record.read? fields document = some found) :
    document.Gives fields found :=
  ⟨found, hread, fun _ _ => rfl⟩

theorem Gives.congr (hgives : document.Gives fields record)
    (h : ∀ field ∈ fields, other.lookup field = record.lookup field) :
    document.Gives fields other := by
  obtain ⟨found, hread, hfound⟩ := hgives
  exact ⟨found, hread, fun field hfield => (hfound field hfield).trans (h field hfield).symm⟩

/-- An object gives what stands under its keys, if no field is repeated. -/
theorem gives_object_iff {members : List (String × Document)} :
    (object members).Gives fields record ↔ ∀ field ∈ fields,
      (members.map (·.1)).count field ≤ 1 ∧ members.lookup field = record.lookup field := by
  unfold Gives
  simp only [Record.read?, nodup_keys_filter_iff]
  split
  next honce =>
    simp only [Option.some.injEq, exists_eq_left']
    exact forall₂_congr fun field hfield => by
      rw [lookup_filter_key (· ∈ fields) (by simpa using hfield),
        and_iff_right (honce field hfield)]
  next hrepeated =>
    simp only [reduceCtorEq, false_and, exists_false, false_iff]
    exact fun h => hrepeated fun field hfield => (h field hfield).1

/-- An array gives its items in the order of the fields. -/
theorem gives_array_iff {items : List Document} :
    (array items).Gives fields record ↔ items.length ≤ fields.length ∧
      ∀ field ∈ fields, (fields.zip items).lookup field = record.lookup field := by
  unfold Gives
  simp only [Record.read?]
  split
  next hlength => simp [hlength]
  next hlength => simp [hlength]

/-- The tag of an object is the member of its key, if there is just one. -/
theorem tagged?_object_eq_some_iff {members : List (String × Document)} {tag : String}
    {kind rest : Document} : (object members).tagged? tag = some (kind, rest) ↔
      (members.map (·.1)).count tag = 1 ∧ members.lookup tag = some kind ∧
        object (members.filter (·.1 ≠ tag)) = rest := by
  have hcount : ((members.filter (·.1 = tag)).map (·.1)).count tag =
      (members.map (·.1)).count tag := count_keys_filter (· = tag) (decide_eq_true rfl)
  have hlookup : (members.filter (·.1 = tag)).lookup tag = members.lookup tag :=
    lookup_filter_key (· = tag) (decide_eq_true rfl)
  have hkeys : ∀ member ∈ members.filter (·.1 = tag), member.1 = tag := by simp
  rw [← hcount, ← hlookup, tagged?]
  cases hfound : members.filter (·.1 = tag) with
  | nil => simp
  | cons first found =>
    rw [hfound, List.forall_mem_cons] at hkeys
    obtain ⟨name, item⟩ := first
    obtain rfl : name = tag := hkeys.1
    cases found with
    | nil => simp
    | cons second found => simp [hkeys.2 second (List.mem_cons_self ..)]

/-- The tag of a variant is a field in front of the others. -/
theorem gives_cons_iff {tag : String} {kind : Document} (htag : tag ∉ fields) :
    document.Gives (tag :: fields) ((tag, kind) :: record) ↔
      ∃ rest, document.tagged? tag = some (kind, rest) ∧ rest.Gives fields record := by
  have hne : ∀ field ∈ fields, field ≠ tag := fun field hfield heq => htag (heq ▸ hfield)
  cases document with
  | object members =>
    have hothers : ∀ field ∈ fields, ((tag, kind) :: record).lookup field = record.lookup field :=
      fun field hfield => by rw [lookup_entry, if_neg (hne field hfield)]
    have hrest : (object (members.filter (·.1 ≠ tag))).Gives fields record ↔
        ∀ field ∈ fields, (members.map (·.1)).count field ≤ 1 ∧
          members.lookup field = ((tag, kind) :: record).lookup field := by
      rw [gives_object_iff]
      refine forall₂_congr fun field hfield => ?_
      have hkept : decide (field ≠ tag) = true := decide_eq_true (hne field hfield)
      rw [count_keys_filter (· ≠ tag) hkept, lookup_filter_key (· ≠ tag) hkept,
        hothers field hfield]
    simp only [tagged?_object_eq_some_iff, gives_object_iff, List.forall_mem_cons, and_assoc,
      exists_and_left, exists_eq_left', hrest, lookup_entry tag tag kind, if_true]
    -- A key that has a member is there at least once.
    have honce : members.lookup tag = some kind →
        ((members.map (·.1)).count tag ≤ 1 ↔ (members.map (·.1)).count tag = 1) := by
      intro hkind
      have hpos : 0 < (members.map (·.1)).count tag :=
        List.count_pos_iff.2 (List.mem_map_of_mem (mem_of_lookup hkind))
      omega
    rw [and_left_comm, and_left_comm (a := (members.map (·.1)).count tag = 1)]
    exact and_congr_right fun hkind => and_congr_left fun _ => honce hkind
  | array items =>
    cases items with
    | nil => simp [gives_array_iff, tagged?]
    | cons item items =>
      have hzip : (∀ field ∈ fields, ((tag :: fields).zip (item :: items)).lookup field =
          ((tag, kind) :: record).lookup field) ↔
          ∀ field ∈ fields, (fields.zip items).lookup field = record.lookup field := by
        refine forall₂_congr fun field hfield => ?_
        rw [List.zip_cons_cons, lookup_entry, lookup_entry, if_neg (hne field hfield),
          if_neg (hne field hfield)]
      have htags : ((tag :: fields).zip (item :: items)).lookup tag =
          ((tag, kind) :: record).lookup tag ↔ item = kind := by
        simp
      simp only [gives_array_iff, List.forall_mem_cons, hzip, htags, tagged?, Option.some.injEq,
        Prod.mk.injEq, and_assoc, exists_and_left, exists_eq_left', List.length_cons,
        Nat.add_le_add_iff_right, and_left_comm]
  | _ => simp [Gives, Record.read?, tagged?]

theorem Gives.exists_tagged? {tag : String} {kind : Document}
    (hgives : document.Gives (tag :: fields) record) (hlookup : record.lookup tag = some kind)
    (htag : tag ∉ fields) :
    ∃ rest, document.tagged? tag = some (kind, rest) ∧ rest.Gives fields record := by
  refine (gives_cons_iff htag).1 (hgives.congr fun field _ => ?_)
  rw [lookup_entry]
  split
  next hfield => rw [hfield, hlookup]
  next => rfl

/-- A field nests less deep than the document that gives it. -/
theorem Gives.depth_lt {item : Document} (hgives : document.Gives fields record)
    (hfield : field ∈ fields) (hlookup : record.lookup field = some item) :
    item.depth < document.depth := by
  obtain ⟨found, hread, hfound⟩ := hgives
  exact Record.depth_lt_of_lookup hread ((hfound field hfield).trans hlookup)

/-- An item of a list under a field nests less deep by two levels. -/
theorem Gives.depth_item_lt {item : Document} {items : List Document}
    (hgives : document.Gives fields record) (hfield : field ∈ fields)
    (hlookup : record.lookup field = some (array items)) (hitem : item ∈ items) :
    item.depth + 1 < document.depth :=
  Nat.lt_of_le_of_lt (depth_lt_array hitem) (hgives.depth_lt hfield hlookup)

/-- Only an object or an array gives a record. -/
theorem Gives.depth_pos (hgives : document.Gives fields record) : 0 < document.depth := by
  obtain ⟨found, hread, -⟩ := hgives
  exact Record.depth_pos_of_read? hread

end Document

/-! ## Lists under a field -/

namespace Document

theorem mapM_eq_some_iff {read : Document → Option α} {items : List Document}
    {results : List α} : items.mapM read = some results ↔
      List.Forall₂ (fun item result => read item = some result) items results := by
  induction items generalizing results with
  | nil => simp [eq_comm]
  | cons item items ih =>
    simp only [mapM_cons_eq_some, ih, List.forall₂_cons_left_iff, exists_and_left, eq_comm]

theorem list?_eq_some_iff {read : Document → Option α} {document : Document}
    {results : List α} : document.list? read = some results ↔
      ∃ items, document = array items ∧
        List.Forall₂ (fun item result => read item = some result) items results := by
  cases document with
  | array items => simp [list?, mapM_eq_some_iff]
  | _ => simp [list?]

end Document

namespace Record

/-- The items of the list under a field give these results one by one; a list that is
missing gives none. -/
inductive Lists (record : Record) (field : String) (gives : Document → α → Prop) :
    List α → Prop
  | missing (hlookup : record.lookup field = none) : Lists record field gives []
  | given {items : List Document} {results : List α}
      (hlookup : record.lookup field = some (.array items))
      (hitems : List.Forall₂ gives items results) : Lists record field gives results

variable {record : Record} {field : String} {read : Document → Option α}
  {gives other : Document → α → Prop} {results : List α}

/-- What an optional list is read as. -/
theorem optional_list?_eq_some_iff :
    record.optional field (Document.list? read) [] = some results ↔
      record.Lists field (fun item result => read item = some result) results := by
  rw [optional]
  constructor
  · intro hread
    split at hread
    next hlookup =>
      cases hread
      exact .missing hlookup
    next document hlookup =>
      obtain ⟨items, rfl, hitems⟩ := Document.list?_eq_some_iff.1 hread
      exact .given hlookup hitems
  · rintro (hlookup | ⟨hlookup, hitems⟩)
    · rw [hlookup]
    · rw [hlookup]
      exact Document.list?_eq_some_iff.2 ⟨_, rfl, hitems⟩

theorem Lists.of_lookup {found : Record} (hlists : record.Lists field gives results)
    (hlookup : found.lookup field = record.lookup field) : found.Lists field gives results := by
  rcases hlists with hmissing | ⟨hgiven, hitems⟩
  · exact .missing (hlookup.trans hmissing)
  · exact .given (hlookup.trans hgiven) hitems

theorem Lists.imp (hlists : record.Lists field gives results)
    (h : ∀ items, record.lookup field = some (.array items) → ∀ item ∈ items, ∀ result,
      gives item result → other item result) : record.Lists field other results := by
  cases hlists with
  | missing hlookup => exact .missing hlookup
  | given hlookup hitems =>
    obtain ⟨hlength, hitems⟩ := List.forall₂_iff_zip.1 hitems
    refine .given hlookup (List.forall₂_iff_zip.2 ⟨hlength, fun hzip => ?_⟩)
    exact h _ hlookup _ (List.of_mem_zip hzip).1 _ (hitems hzip)

end Record

end SceneLogic.Json

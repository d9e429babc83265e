import SceneLogic.Proofs.Json.Fields

/-!
# Changes of documents

One member of an object is set, or what stands under one field of a record is changed, or
one item of an array.  What a record is read from is then the same but for that field, and
a value stays a value.

## Main definitions

* `Document.field?`, `Document.item?` — the parts of a document.
* `Document.setMember`, `Document.modifyField`, `Document.modifyItem` — the changes.

## Main statements

* `Document.Gives.setMember`, `Document.Gives.modifyField` — the record after a change.
* `Record.Lists.modify` — the list under a field after a change of one item.
* `Document.Canonical.setMember`, `Document.Canonical.modifyField`,
  `Document.Canonical.modifyItem` — a value that is changed is a value.
-/

namespace SceneLogic.Json

namespace Document

/-- What stands under a field of a record. -/
def field? (fields : List String) (field : String) (document : Document) : Option Document :=
  (Record.read? fields document).bind (·.lookup field)

/-- The item of an array at a position. -/
def item? (index : Nat) : Document → Option Document
  | array items => items[index]?
  | _ => none

/-- Set a member of an object that has its members in order. -/
def setMember (document : Document) (key : String) (item : Document) : Document :=
  match document with
  | object members => object (NameMap.insertEntry key item members)
  | document => document

/-- Change what stands under a field of a record, in an object or in an array. -/
def modifyField (fields : List String) (field : String) (change : Document → Document) :
    Document → Document
  | object members =>
    object (members.map fun member =>
      if member.1 = field then (member.1, change member.2) else member)
  | array items => array (items.modify (fields.idxOf field) change)
  | document => document

/-- Change the item of an array at a position. -/
def modifyItem (index : Nat) (change : Document → Document) : Document → Document
  | array items => array (items.modify index change)
  | document => document

/-! ## Look-ups after a change -/

section

variable {fields : List String} {field name : String} {items : List Document}
  {members : List (String × Document)} {change : Document → Document}

theorem lookup_map_change :
    (members.map fun member =>
      if member.1 = field then (member.1, change member.2) else member).lookup name =
      if name = field then (members.lookup name).map change else members.lookup name := by
  induction members with
  | nil => simp
  | cons member members ih =>
    obtain ⟨key, item⟩ := member
    rw [List.map_cons, lookup_entry name key item members]
    by_cases hkey : key = field
    · subst hkey
      by_cases hname : name = key <;> simp [lookup_entry, hname, ih]
    · rw [if_neg hkey, lookup_entry, ih]
      by_cases hname : name = key
      · subst hname
        simp [hkey]
      · simp [hname]

theorem keys_map_change :
    (members.map fun member =>
      if member.1 = field then (member.1, change member.2) else member).map (·.1) =
      members.map (·.1) := by
  rw [List.map_map]
  refine List.map_congr_left fun member _ => ?_
  simp only [Function.comp_apply]
  split <;> rfl

theorem lookup_zip_modify :
    (fields.zip (items.modify (fields.idxOf field) change)).lookup name =
      if name = field then ((fields.zip items).lookup name).map change
      else (fields.zip items).lookup name := by
  induction fields generalizing items with
  | nil => simp
  | cons first fields ih =>
    cases items with
    | nil => simp
    | cons item items =>
      by_cases hfirst : first = field
      · subst hfirst
        by_cases hname : name = first <;> simp [lookup_entry, hname]
      · rw [List.idxOf_cons_ne _ hfirst, List.modify_succ_cons, List.zip_cons_cons, lookup_entry,
          List.zip_cons_cons, lookup_entry, ih]
        by_cases hname : name = first
        · subst hname
          simp [hfirst]
        · simp [hname]

end

/-! ## Records after a change -/

variable {fields : List String} {field key : String} {document item : Document}
  {record : Record} {change : Document → Document}

theorem Gives.field? (hgives : document.Gives fields record) (hfield : field ∈ fields) :
    document.field? fields field = record.lookup field := by
  obtain ⟨found, hread, hfound⟩ := hgives
  rw [Document.field?, hread, Option.bind_some, hfound field hfield]

/-- A member that is set stands in front of what the object gives. -/
theorem Gives.setMember {members : List (String × Document)}
    (hgives : (object members).Gives fields record) (hascending : NameMap.Ascending members)
    (key : String) (item : Document) :
    ((object members).setMember key item).Gives fields ((key, item) :: record) := by
  rw [Document.setMember, gives_object_iff]
  intro field hfield
  have hnodup := nodup_keys (NameMap.ascending_insertEntry key item hascending)
  rw [NameMap.lookup_insertEntry, lookup_entry, (gives_object_iff.1 hgives field hfield).2]
  exact ⟨List.nodup_iff_count_le_one.1 hnodup field, rfl⟩

/-- A field that is changed stands in front of what the document gives. -/
theorem Gives.modifyField (hgives : document.Gives fields record)
    (hlookup : record.lookup field = some item) (change : Document → Document) :
    (document.modifyField fields field change).Gives fields ((field, change item) :: record) := by
  have hrecord : ∀ name, (if name = field then (record.lookup name).map change
      else record.lookup name) = ((field, change item) :: record).lookup name := by
    intro name
    rw [lookup_entry]
    split
    next hname => rw [hname, hlookup, Option.map_some]
    next => rfl
  cases document with
  | object members =>
    rw [gives_object_iff] at hgives
    rw [Document.modifyField, gives_object_iff]
    intro name hname
    rw [keys_map_change, lookup_map_change, (hgives name hname).2, hrecord]
    exact ⟨(hgives name hname).1, rfl⟩
  | array items =>
    rw [gives_array_iff] at hgives
    rw [Document.modifyField, gives_array_iff, List.length_modify]
    refine ⟨hgives.1, fun name hname => ?_⟩
    rw [lookup_zip_modify, hgives.2 name hname, hrecord]
  | _ => exact absurd hgives.depth_pos (Nat.lt_irrefl 0)

/-! ## Values after a change -/

theorem canonicalItems_iff {items : List Document} :
    CanonicalItems items ↔ ∀ item ∈ items, item.Canonical := by
  induction items with
  | nil => simp [CanonicalItems]
  | cons item items ih => simp [CanonicalItems, ih]

theorem canonicalMembers_iff {members : List (String × Document)} :
    CanonicalMembers members ↔ ∀ member ∈ members, member.2.Canonical := by
  induction members with
  | nil => simp [CanonicalMembers]
  | cons member members ih => simp [CanonicalMembers, ih]

theorem canonicalItems_modify {items : List Document} (hitems : CanonicalItems items)
    (hchange : ∀ item, item.Canonical → (change item).Canonical) (index : Nat) :
    CanonicalItems (items.modify index change) := by
  rw [canonicalItems_iff] at hitems ⊢
  intro item hitem
  obtain ⟨place, hplace⟩ := List.mem_iff_getElem?.1 hitem
  rw [List.getElem?_modify, Option.map_eq_map, Option.map_eq_some_iff] at hplace
  obtain ⟨kept, hkept, rfl⟩ := hplace
  have hcanonical := hitems kept (List.mem_of_getElem? hkept)
  split
  · exact hchange kept hcanonical
  · exact hcanonical

theorem Canonical.setMember (hdocument : document.Canonical) (key : String)
    (hitem : item.Canonical) : (document.setMember key item).Canonical := by
  cases document with
  | object members =>
    exact ⟨NameMap.ascending_insertEntry key item hdocument.1,
      canonicalMembers_insertEntry hitem hdocument.2⟩
  | _ => exact hdocument

theorem Canonical.modifyField (hdocument : document.Canonical)
    (hchange : ∀ item, item.Canonical → (change item).Canonical) :
    (document.modifyField fields field change).Canonical := by
  cases document with
  | object members =>
    obtain ⟨hascending, hmembers⟩ := hdocument
    rw [canonicalMembers_iff] at hmembers
    refine ⟨List.pairwise_map.2 (hascending.imp fun hlt => ?_), canonicalMembers_iff.2 ?_⟩
    · split <;> split <;> exact hlt
    · intro member hmember
      obtain ⟨kept, hkept, rfl⟩ := List.mem_map.1 hmember
      split
      · exact hchange _ (hmembers kept hkept)
      · exact hmembers kept hkept
  | array items => exact canonicalItems_modify hdocument hchange _
  | _ => exact hdocument

theorem Canonical.modifyItem (hdocument : document.Canonical)
    (hchange : ∀ item, item.Canonical → (change item).Canonical) (index : Nat) :
    (document.modifyItem index change).Canonical := by
  cases document with
  | array items => exact canonicalItems_modify hdocument hchange index
  | _ => exact hdocument

end Document

/-! ## Lists after a change -/

namespace Record.Lists

variable {record : Record} {field : String} {gives : Document → α → Prop} {results : List α}
  {result : α} {index : Nat}

/-- A result comes from the item at its position. -/
theorem exists_item? (hlists : record.Lists field gives results)
    (hresult : results[index]? = some result) : ∃ list item,
      record.lookup field = some list ∧ list.item? index = some item ∧ gives item result := by
  cases hlists with
  | missing => cases hresult
  | @given items _ hlookup hitems =>
    obtain ⟨hlength, hitems⟩ := List.forall₂_iff_get.1 hitems
    obtain ⟨hindex, rfl⟩ := List.getElem?_eq_some_iff.1 hresult
    exact ⟨_, items[index], hlookup, List.getElem?_eq_getElem (hlength ▸ hindex), hitems _ _ _⟩

theorem forall₂_modify {items : List Document} {item : Document} {change : Document → Document}
    {update : α → α} (hitems : List.Forall₂ gives items results)
    (hitem : items[index]? = some item) (hresult : results[index]? = some result)
    (hchange : gives (change item) (update result)) :
    List.Forall₂ gives (items.modify index change) (results.modify index update) := by
  induction hitems generalizing index with
  | nil => cases hitem
  | cons hhead htail ih =>
    cases index with
    | zero =>
      cases hitem
      cases hresult
      exact .cons hchange htail
    | succ index => exact .cons hhead (ih hitem hresult)

/-- **One item is changed**: the results are the same but for the one at its position. -/
theorem modify {list item : Document} (hlists : record.Lists field gives results)
    (hlookup : record.lookup field = some list) (hitem : list.item? index = some item)
    (hresult : results[index]? = some result) (change : Document → Document) (update : α → α)
    (hchange : gives (change item) (update result)) :
    Lists ((field, list.modifyItem index change) :: record) field gives
      (results.modify index update) := by
  have hfront := (lookup_entry field field (list.modifyItem index change) record).trans
    (if_pos rfl)
  rcases hlists with hmissing | ⟨hgiven, hitems⟩
  · rw [hmissing] at hlookup
    cases hlookup
  · obtain rfl := Option.some.inj (hgiven.symm.trans hlookup)
    exact .given hfront (forall₂_modify hitems hitem hresult hchange)

end Record.Lists

end SceneLogic.Json

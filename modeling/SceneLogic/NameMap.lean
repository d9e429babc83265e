import SceneLogic.Lookup

/-!
# Finite maps keyed by names

Variables, picked objects, registered instructions and loaded scenes are all
looked up by name and listed in the order of their names.  A `NameMap` keeps its
entries in strictly ascending order, so two maps with the same look-ups are the
same map and listing needs no sort.  Names are ordered by code point, which is
also the order of their UTF-8 bytes.

## Main definitions

* `NameMap α` — the map; `get?`, `insert`, `erase`, `merge`, `ofList`.

## Main statements

* `get?_insert`, `get?_erase` — what an update does to each look-up.
* `ext_get?` — a map is determined by its look-ups.
-/

namespace SceneLogic

namespace NameMap

variable {α : Type u}

/-- The order in which entries are kept: no name occurs twice. -/
abbrev Ascending (entries : List (String × α)) : Prop :=
  entries.Pairwise fun a b => a.1 < b.1

/-- Put an entry in its place, replacing an entry of the same name. -/
def insertEntry (name : String) (value : α) : List (String × α) → List (String × α)
  | [] => [(name, value)]
  | (key, kept) :: rest =>
    if name < key then (name, value) :: (key, kept) :: rest
    else if name = key then (name, value) :: rest
    else (key, kept) :: insertEntry name value rest

theorem mem_insertEntry {name : String} {value : α} {entries : List (String × α)}
    {entry : String × α} (h : entry ∈ insertEntry name value entries) :
    entry = (name, value) ∨ entry ∈ entries := by
  induction entries with
  | nil => simpa [insertEntry] using h
  | cons head rest ih =>
    unfold insertEntry at h
    split at h
    · simpa using h
    · split at h
      · rcases List.mem_cons.1 h with h | h
        · exact .inl h
        · exact .inr (List.mem_cons_of_mem _ h)
      · rcases List.mem_cons.1 h with h | h
        · exact .inr (by simp [h])
        · exact (ih h).imp_right (List.mem_cons_of_mem _)

theorem ascending_insertEntry (name : String) (value : α) {entries : List (String × α)}
    (h : Ascending entries) : Ascending (insertEntry name value entries) := by
  induction entries with
  | nil => simp [insertEntry, Ascending]
  | cons head rest ih =>
    obtain ⟨key, kept⟩ := head
    have ⟨below, tail⟩ := List.pairwise_cons.1 h
    unfold insertEntry
    split
    next lt =>
      refine List.pairwise_cons.2 ⟨fun entry mem => ?_, h⟩
      rcases List.mem_cons.1 mem with rfl | mem
      · exact lt
      · exact String.lt_trans lt (below entry mem)
    next not_lt =>
      split
      next eq => exact List.pairwise_cons.2 ⟨fun entry mem => eq ▸ below entry mem, tail⟩
      next ne =>
        have lt : key < name := by
          refine Decidable.byContradiction fun not_gt => ne ?_
          exact String.le_antisymm not_gt not_lt
        refine List.pairwise_cons.2 ⟨fun entry mem => ?_, ih tail⟩
        rcases mem_insertEntry mem with rfl | mem
        · exact lt
        · exact below entry mem

theorem lookup_insertEntry (name other : String) (value : α) (entries : List (String × α)) :
    (insertEntry name value entries).lookup other =
      if other = name then some value else entries.lookup other := by
  induction entries with
  | nil => simp [insertEntry, lookup_entry]
  | cons head rest ih =>
    obtain ⟨key, kept⟩ := head
    unfold insertEntry
    split
    · simp [lookup_entry]
    · split
      next eq =>
        subst eq
        by_cases h : other = name <;> simp [lookup_entry, h]
      next ne =>
        by_cases h : other = name
        · subst h
          simp [lookup_entry, ih, ne]
        · simp [lookup_entry, ih, h]

end NameMap

/-- A finite map from names, its entries in strictly ascending order. -/
structure NameMap (α : Type u) where
  entries : List (String × α)
  ascending : NameMap.Ascending entries
deriving DecidableEq

namespace NameMap

variable {α : Type u}

/-- The map without entries. -/
def empty : NameMap α := ⟨[], .nil⟩

instance : EmptyCollection (NameMap α) := ⟨empty⟩
instance : Inhabited (NameMap α) := ⟨empty⟩

/-- The value under a name. -/
def get? (map : NameMap α) (name : String) : Option α := map.entries.lookup name

/-- Whether the name has a value. -/
def contains (map : NameMap α) (name : String) : Bool := (map.get? name).isSome

/-- Set the value under a name. -/
def insert (map : NameMap α) (name : String) (value : α) : NameMap α :=
  ⟨insertEntry name value map.entries, ascending_insertEntry name value map.ascending⟩

/-- Drop the value under a name. -/
def erase (map : NameMap α) (name : String) : NameMap α :=
  ⟨map.entries.filter (·.1 ≠ name), map.ascending.filter _⟩

/-- The names in use, in order. -/
def keys (map : NameMap α) : List String := map.entries.map (·.1)

/-- The values, in the order of their names. -/
def values (map : NameMap α) : List α := map.entries.map (·.2)

/-- The number of names in use. -/
def size (map : NameMap α) : Nat := map.entries.length

/-- Whether no name is in use. -/
def isEmpty (map : NameMap α) : Bool := map.entries.isEmpty

/-- Change every value, keeping its name. -/
def map (entries : NameMap α) (f : α → β) : NameMap β :=
  ⟨entries.entries.map fun entry => (entry.1, f entry.2),
    List.pairwise_map.2 entries.ascending⟩

/-- Add the entries of a list from the left; of two entries with one name the later wins. -/
def insertAll (map : NameMap α) (entries : List (String × α)) : NameMap α :=
  entries.foldl (fun map entry => map.insert entry.1 entry.2) map

/-- The map of the entries of a list; of two entries with one name the later wins. -/
def ofList (entries : List (String × α)) : NameMap α := insertAll empty entries

/-- Both maps together; on a shared name the second wins. -/
def merge (map other : NameMap α) : NameMap α := map.insertAll other.entries

@[simp] theorem get?_insert (map : NameMap α) (name other : String) (value : α) :
    (map.insert name value).get? other = if other = name then some value else map.get? other :=
  lookup_insertEntry name other value map.entries

theorem get?_erase (map : NameMap α) (name other : String) :
    (map.erase name).get? other = if other = name then none else map.get? other :=
  lookup_erase other name map.entries

@[simp] theorem get?_map (entries : NameMap α) (f : α → β) (name : String) :
    (entries.map f).get? name = (entries.get? name).map f := by
  simp only [get?, map]
  induction entries.entries with
  | nil => rfl
  | cons head rest ih =>
    obtain ⟨key, kept⟩ := head
    by_cases h : name = key <;> simp_all [lookup_entry]

/-- A name that comes before every entry is not found among them. -/
theorem lookup_of_below {name : String} {entries : List (String × α)}
    (below : ∀ entry ∈ entries, name < entry.1) : entries.lookup name = none := by
  refine List.lookup_eq_none_iff.2 fun entry mem => ?_
  simp only [bne_iff_ne, ne_eq]
  intro eq
  exact String.lt_irrefl entry.1 (eq ▸ below entry mem)

/-- A map is determined by its look-ups. -/
theorem ext_get? {map other : NameMap α} (h : ∀ name, map.get? name = other.get? name) :
    map = other := by
  obtain ⟨left, hleft⟩ := map
  obtain ⟨right, hright⟩ := other
  congr
  induction left generalizing right with
  | nil =>
    cases right with
    | nil => rfl
    | cons head rest =>
      have := h head.1
      rw [get?, get?, lookup_entry head.1 head.1 head.2] at this
      simp at this
  | cons head rest ih =>
    cases right with
    | nil =>
      have := h head.1
      rw [get?, get?, lookup_entry head.1 head.1 head.2] at this
      simp at this
    | cons head2 rest2 =>
      obtain ⟨key, kept⟩ := head
      obtain ⟨key2, kept2⟩ := head2
      have ⟨below, tail⟩ := List.pairwise_cons.1 hleft
      have ⟨below2, tail2⟩ := List.pairwise_cons.1 hright
      have same : key = key2 := by
        refine Decidable.byContradiction fun ne => ?_
        have first := h key
        have second := h key2
        simp only [get?, lookup_entry, if_neg ne, if_neg (Ne.symm ne), if_true] at first second
        by_cases lt : key < key2
        · rw [lookup_of_below fun entry mem => String.lt_trans lt (below2 entry mem)] at first
          cases first
        · have gt : key2 < key := Decidable.byContradiction fun not_gt =>
            ne (String.le_antisymm not_gt lt)
          rw [lookup_of_below fun entry mem => String.lt_trans gt (below entry mem)] at second
          cases second
      subst same
      have value : kept = kept2 := by simpa [get?] using h key
      subst value
      congr 1
      refine ih tail rest2 tail2 fun name => ?_
      by_cases eq : name = key
      · subst eq
        simp only [get?]
        rw [lookup_of_below below, lookup_of_below below2]
      · simpa [get?, lookup_entry, eq] using h name

end NameMap

end SceneLogic

import SceneLogic.Objects.Picking
import SceneLogic.Proofs.Objects.StoreInvariant

/-!
# What is done to the lists of a picking

A list is filled when its object is first mentioned, so what is done to a list is told of the
list as it is once it is filled.  Mentioning an object and taking its live handles then come
down to replacing one list; so does narrowing the list of one object apart from the others.
Conditions do no more than that, and what they put in place of a list is part of it.

## Main definitions

* `Picking.filled` — the list of a name, once it is filled.
* `Picking.Narrows` — no list is gone, and each is part of what it was.

## Main statements

* `NameMap.get?_merge` — of two maps together the second wins.
* `Store.mem_instancesOf_iff`, `Store.pairwise_instancesOf` — the instances of an object are
  live handles of it in the order of their slots.
* `Picking.ensure_eq`, `Picking.picked_eq`, `Picking.rejoin_eq` — what the operations replace.
* `Picking.rejoin_self`, `Picking.anyPicked_splitOff` — a list apart from the others.
* `Picking.Narrows.insert` — a list may be replaced by a part of it.
-/

namespace SceneLogic

/-! ## Maps together -/

namespace NameMap

variable {α : Type u}

/-- Of two entries of one name the later counts. -/
@[simp] theorem insert_insert (map : NameMap α) (name : String) (first second : α) :
    (map.insert name first).insert name second = map.insert name second := by
  apply ext_get?
  intro other
  by_cases hother : other = name <;> simp [hother]

/-- Entries of different names may be made in either order. -/
theorem insert_comm (map : NameMap α) {name other : String} (hne : name ≠ other)
    (first second : α) :
    (map.insert name first).insert other second = (map.insert other second).insert name first := by
  apply ext_get?
  intro key
  by_cases hname : key = name
  · subst hname
    simp [hne]
  · simp [hname]

theorem get?_insertAll (map : NameMap α) {entries : List (String × α)}
    (hentries : Ascending entries) (name : String) :
    (map.insertAll entries).get? name = (entries.lookup name).or (map.get? name) := by
  induction entries generalizing map with
  | nil => rfl
  | cons entry rest ih =>
    obtain ⟨key, value⟩ := entry
    have ⟨hbelow, hrest⟩ := List.pairwise_cons.1 hentries
    change ((map.insert key value).insertAll rest).get? name = _
    rw [ih _ hrest, get?_insert, lookup_entry]
    by_cases hname : name = key
    · subst hname
      simp [lookup_of_below hbelow]
    · simp [hname]

/-- Of two maps together the second wins. -/
theorem get?_merge (map other : NameMap α) (name : String) :
    (map.merge other).get? name = (other.get? name).or (map.get? name) :=
  get?_insertAll map other.ascending name

end NameMap

/-! ## The instances of an object -/

namespace Store

variable {store : Store}

/-- Every live handle is among the instances of its object. -/
theorem mem_instancesOf_of_get? {handle : Handle} {item : Instance}
    (hitem : store.get? handle = some item) : handle ∈ store.instancesOf item.object := by
  have hkept : (handle, item) ∈ store.entries.filter (·.2.object = item.object) :=
    List.mem_filter.2 ⟨mem_entries_of_get? hitem, decide_eq_true rfl⟩
  exact List.mem_map.2 ⟨(handle, item), hkept, rfl⟩

/-- Where slots can be numbered, the instances of an object are live handles of it. -/
theorem exists_of_mem_instancesOf (hlength : store.slots.length ≤ UInt32.size)
    {object : String} {handle : Handle} (hmem : handle ∈ store.instancesOf object) :
    ∃ item, store.get? handle = some item ∧ item.object = object := by
  obtain ⟨⟨handle, item⟩, hkept, rfl⟩ := List.mem_map.1 hmem
  obtain ⟨hentry, hobject⟩ := List.mem_filter.1 hkept
  exact ⟨item, get?_of_mem_entries hlength hentry, of_decide_eq_true hobject⟩

/-- Where slots can be numbered, the instances of an object are its live handles. -/
theorem mem_instancesOf_iff (hlength : store.slots.length ≤ UInt32.size) {object : String}
    {handle : Handle} : handle ∈ store.instancesOf object ↔
      ∃ item, store.get? handle = some item ∧ item.object = object := by
  constructor
  · exact exists_of_mem_instancesOf hlength
  · rintro ⟨item, hitem, rfl⟩
    exact mem_instancesOf_of_get? hitem

/-- Where slots can be numbered, the instances of an object stand in the order of their slots. -/
theorem pairwise_instancesOf (hlength : store.slots.length ≤ UInt32.size) (object : String) :
    ((store.instancesOf object).map (·.slot)).Pairwise (· < ·) := by
  have hsublist : ((store.instancesOf object).map (·.slot)).Sublist
      (store.entries.map (·.1.slot)) := by
    rw [instancesOf, List.map_map]
    exact List.filter_sublist.map _
  exact (pairwise_entries_of_length_le hlength).sublist hsublist

end Store

/-! ## Replacing a list -/

namespace Picking

variable (picking : Picking) (name : String) (store : Store)

/-- The list of a name, once it is filled. -/
def filled : List Handle := (picking.get? name).getD (store.instancesOf name)

variable {picking name store}

theorem filled_of_get? {handles : List Handle} (h : picking.get? name = some handles) :
    picking.filled name store = handles := by simp [filled, h]

theorem filled_of_get?_eq_none (h : picking.get? name = none) :
    picking.filled name store = store.instancesOf name := by simp [filled, h]

@[simp] theorem filled_insert (other : String) (handles : List Handle) :
    filled (picking.insert name handles) other store =
      if other = name then handles else picking.filled other store := by
  by_cases hother : other = name <;> simp [filled, hother]

variable (picking name store)

/-- Mentioning an object puts its list in place, once it is filled. -/
theorem ensure_eq :
    picking.ensure name store =
      (picking.filled name store, picking.insert name (picking.filled name store)) := by
  unfold ensure
  cases hlist : picking.get? name with
  | none => simp [filled, hlist]
  | some handles =>
    refine Prod.ext (by simp [filled, hlist]) (NameMap.ext_get? fun other => ?_)
    by_cases hother : other = name <;> simp [filled, hother, hlist]

/-- A first mention adds the list of all instances; no other list changes. -/
theorem get?_ensure (other : String) :
    (picking.ensure name store).2.get? other =
      (picking.get? other).or (if name = other then some (store.instancesOf name) else none) := by
  rw [ensure_eq]
  by_cases hother : name = other
  · subst hother
    cases hlist : picking.get? name <;> simp [filled, hlist]
  · simp [hother, Ne.symm hother]

/-- The live handles of a name take the place of its list. -/
theorem picked_eq :
    picking.picked name store =
      ((picking.filled name store).filter store.isAlive,
        picking.insert name ((picking.filled name store).filter store.isAlive)) := by
  simp [picked, ensure_eq]

/-- The list of one name, narrowed apart from the others, takes its own place. -/
theorem rejoin_eq {handles : List Handle} (h : picking.get? name = some handles)
    (test : Handle → Bool) :
    (picking.splitOff [name]).2.merge ((picking.splitOff [name]).1.keepIf test) =
      picking.insert name (handles.filter test) := by
  apply NameMap.ext_get?
  intro other
  simp only [splitOff, List.foldl_cons, List.foldl_nil, h, NameMap.get?_merge, keepIf,
    NameMap.get?_map, NameMap.get?_insert, NameMap.get?_erase]
  by_cases hother : other = name
  · simp [hother]
  · simp only [hother, if_false]
    rfl

/-- A list that was put apart from the others may be put back. -/
theorem rejoin_self {handles : List Handle} (h : picking.get? name = some handles) :
    (picking.splitOff [name]).2.merge (picking.splitOff [name]).1 = picking := by
  apply NameMap.ext_get?
  intro other
  simp only [splitOff, List.foldl_cons, List.foldl_nil, h, NameMap.get?_merge,
    NameMap.get?_insert, NameMap.get?_erase]
  by_cases hother : other = name
  · simp [hother, h]
  · simp only [hother, if_false]
    rfl

/-- Whether anything is left of a list that is narrowed apart from the others. -/
theorem anyPicked_splitOff {handles : List Handle} (h : picking.get? name = some handles)
    (test : Handle → Bool) :
    ((picking.splitOff [name]).1.keepIf test).anyPicked = !(handles.filter test).isEmpty := by
  simp only [splitOff, List.foldl_cons, List.foldl_nil, h]
  exact Bool.or_false _

/-! ## Narrowing -/

/-- No list is gone, and each list, once it is filled, is part of what it was, in the same
order. -/
structure Narrows (before after : Picking) : Prop where
  kept : ∀ name, (before.get? name).isSome = true → (after.get? name).isSome = true
  sublist : ∀ name, (after.filled name store).Sublist (before.filled name store)

namespace Narrows

variable {store} {first second third : Picking}

@[refl] theorem refl (picking : Picking) : Narrows store picking picking where
  kept _ := id
  sublist _ := List.Sublist.refl _

theorem trans (h : Narrows store first second) (hnext : Narrows store second third) :
    Narrows store first third where
  kept name := hnext.kept name ∘ h.kept name
  sublist name := (hnext.sublist name).trans (h.sublist name)

variable {picking name}

/-- A list may be replaced by a part of it. -/
theorem insert {handles : List Handle} (h : handles.Sublist (picking.filled name store)) :
    Narrows store picking (picking.insert name handles) where
  kept other := by
    by_cases hother : other = name <;> simp [hother]
  sublist other := by
    by_cases hother : other = name
    · subst hother
      simpa using h
    · simp [hother]

theorem picked (picking : Picking) (name : String) (store : Store) :
    Narrows store picking (picking.picked name store).2 := by
  rw [picked_eq]
  exact insert List.filter_sublist

/-- What became of a list that was there. -/
theorem get?_of_some (h : Narrows store first second) {handles : List Handle}
    (hlist : first.get? name = some handles) :
    ∃ left, second.get? name = some left ∧ left.Sublist handles := by
  have hkept := h.kept name (by simp [hlist])
  obtain ⟨left, hleft⟩ := Option.isSome_iff_exists.1 hkept
  have hsublist := h.sublist name
  rw [filled_of_get? hlist, filled_of_get? hleft] at hsublist
  exact ⟨left, hleft, hsublist⟩

/-- What a list that is there was made of, if it was not there before. -/
theorem sublist_of_none (h : Narrows store first second) (hnone : first.get? name = none)
    {left : List Handle} (hleft : second.get? name = some left) :
    left.Sublist (store.instancesOf name) := by
  have hsublist := h.sublist name
  rwa [filled_of_get?_eq_none hnone, filled_of_get? hleft] at hsublist

end Narrows

end Picking

end SceneLogic

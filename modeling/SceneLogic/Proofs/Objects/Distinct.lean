import Mathlib.Data.List.Nodup
import SceneLogic.Proofs.Objects.Issued
import SceneLogic.Proofs.Objects.Picking

/-!
# Lists without repetition

A list of picked handles may hold handles of instances that have ended, and a new instance may
be in the slot of one of them.  The lists are without repetition all the same, as long as
handles are kept apart: whatever a list holds was given out by the store before, and a new
handle was not.

## Main definitions

* `Store.Continues` — a change after which a store is in order and knows what was given out.
* `Picking.Distinct` — lists without repetition, of handles that a store gave out.

## Main statements

* `Store.WellFormed.continues_insert`, `Store.WellFormed.continues_modify`,
  `Store.WellFormed.continues_destroyAll` — what the updates of a store are changes of this kind.
* `Picking.Distinct.of_narrows`, `Picking.Distinct.addCreated`, `Picking.Distinct.keepIf` —
  what is done to the lists keeps them without repetition.
-/

namespace SceneLogic

/-! ## What goes on with a store -/

namespace Store

/-- After the change the store is in order, and what was given out before it stays so. -/
structure Continues (before after : Store) : Prop where
  wellFormed : after.WellFormed
  hasIssued : ∀ handle, before.HasIssued handle → after.HasIssued handle

namespace Continues

variable {first second third : Store}

theorem trans (h : first.Continues second) (hnext : second.Continues third) :
    first.Continues third where
  wellFormed := hnext.wellFormed
  hasIssued handle := hnext.hasIssued handle ∘ h.hasIssued handle

end Continues

namespace WellFormed

variable {store : Store}

theorem continues (hstore : store.WellFormed) : store.Continues store := ⟨hstore, fun _ => id⟩

theorem keepsApart (hstore : store.WellFormed) : store.KeepsApart store :=
  ⟨hstore.length_le, fun _ _ => UInt32.le_refl _⟩

theorem continues_insert (hstore : store.WellFormed) {item : Instance}
    (hkept : store.KeepsApart (store.insert item).2) : store.Continues (store.insert item).2 := by
  have hroom := hstore.live_lt hkept.length_le
  exact ⟨hstore.insert hroom item, fun _ hissued => hissued.insert hstore hroom item⟩

theorem continues_modify (hstore : store.WellFormed) (handle : Handle)
    (change : Instance → Instance) : store.Continues (store.modify handle change) :=
  ⟨hstore.modify handle change, fun _ hissued => hissued.modify handle change⟩

theorem continues_destroyAll (hstore : store.WellFormed) {handles : List Handle}
    (hkept : store.KeepsApart (store.destroyAll handles)) :
    store.Continues (store.destroyAll handles) := by
  induction handles generalizing store with
  | nil => exact hstore.continues
  | cons handle rest ih =>
    obtain ⟨hfirst, hrest⟩ := hkept.of_destroyAll
    have hnext : store.Continues (store.destroy handle).2 :=
      ⟨hstore.destroy handle, fun _ hissued => hissued.destroy hfirst⟩
    exact hnext.trans (ih hnext.wellFormed hrest)

/-- The instances of an object are listed once each. -/
theorem nodup_instancesOf (hstore : store.WellFormed) (object : String) :
    (store.instancesOf object).Nodup := by
  have hordered := pairwise_instancesOf hstore.length_le object
  have hslots : ((store.instancesOf object).map (·.slot)).Nodup := hordered.imp UInt32.ne_of_lt
  exact hslots.of_map _

theorem hasIssued_of_mem_instancesOf (hstore : store.WellFormed) {object : String}
    {handle : Handle} (hmem : handle ∈ store.instancesOf object) : store.HasIssued handle := by
  obtain ⟨item, hitem, -⟩ := exists_of_mem_instancesOf hstore.length_le hmem
  exact hasIssued_of_isAlive (isAlive_iff.2 ⟨item, hitem⟩)

end WellFormed

end Store

/-! ## What is done to the lists -/

namespace Picking

/-- No list has a handle twice, and the store gave all of them out. -/
structure Distinct (picking : Picking) (store : Store) : Prop where
  nodup : ∀ name handles, picking.get? name = some handles → handles.Nodup
  hasIssued : ∀ name handles, picking.get? name = some handles →
    ∀ handle ∈ handles, store.HasIssued handle

theorem distinct_empty (store : Store) : Distinct ∅ store := ⟨nofun, nofun⟩

namespace Distinct

variable {picking : Picking} {store : Store}

theorem insert (h : picking.Distinct store) (name : String) {handles : List Handle}
    (hnodup : handles.Nodup) (hissued : ∀ handle ∈ handles, store.HasIssued handle) :
    Distinct (picking.insert name handles) store := by
  constructor
  all_goals
    intro other found hfound
    rw [NameMap.get?_insert] at hfound
    split at hfound
  · cases hfound
    exact hnodup
  · exact h.nodup other found hfound
  · cases hfound
    exact hissued
  · exact h.hasIssued other found hfound

/-- A list may be filled, as the instances of an object are listed once each. -/
theorem nodup_filled (h : picking.Distinct store) (hstore : store.WellFormed) (name : String) :
    (picking.filled name store).Nodup := by
  cases hlist : picking.get? name with
  | none =>
    rw [filled_of_get?_eq_none hlist]
    exact hstore.nodup_instancesOf name
  | some handles =>
    rw [filled_of_get? hlist]
    exact h.nodup name handles hlist

theorem hasIssued_filled (h : picking.Distinct store) (hstore : store.WellFormed) (name : String) :
    ∀ handle ∈ picking.filled name store, store.HasIssued handle := by
  cases hlist : picking.get? name with
  | none =>
    rw [filled_of_get?_eq_none hlist]
    exact fun _ => hstore.hasIssued_of_mem_instancesOf
  | some handles =>
    rw [filled_of_get? hlist]
    exact h.hasIssued name handles hlist

/-- Lists that are part of what they were stay without repetition. -/
theorem of_narrows (h : picking.Distinct store) (hstore : store.WellFormed) {after : Picking}
    (hnarrows : Narrows store picking after) : after.Distinct store := by
  constructor
  all_goals
    intro name handles hlist
    have hsublist := hnarrows.sublist name
    rw [filled_of_get? hlist] at hsublist
  · exact (h.nodup_filled hstore name).sublist hsublist
  · exact fun handle hmem => h.hasIssued_filled hstore name handle (hsublist.subset hmem)

/-- The store may go on. -/
theorem of_continues {after : Store} (h : picking.Distinct store)
    (hcontinues : store.Continues after) : picking.Distinct after where
  nodup := h.nodup
  hasIssued name handles hlist handle hmem :=
    hcontinues.hasIssued handle (h.hasIssued name handles hlist handle hmem)

/-- A new instance may be picked: the store gave out no handle of the list anew, although the
slot may be one that a handle of the list names. -/
theorem addCreated (h : picking.Distinct store) (hstore : store.WellFormed) (name : String)
    {item : Instance} (hkept : store.KeepsApart (store.insert item).2) :
    (picking.addCreated name (store.insert item).1).Distinct (store.insert item).2 := by
  have hroom := hstore.live_lt hkept.length_le
  have hcontinues := hstore.continues_insert hkept
  have hfresh : (store.insert item).2.HasIssued (store.insert item).1 := by
    apply Store.hasIssued_of_isAlive
    simp [hstore.isAlive_insert hroom]
  have hlist : ∀ handles, (picking.get? name).getD [] = handles → handles.Nodup ∧
      ∀ handle ∈ handles, store.HasIssued handle := by
    rintro handles rfl
    cases hname : picking.get? name with
    | none => exact ⟨List.nodup_nil, nofun⟩
    | some handles => exact ⟨h.nodup name handles hname, h.hasIssued name handles hname⟩
  obtain ⟨hnodup, hissued⟩ := hlist _ rfl
  refine (h.of_continues hcontinues).insert name ?_ ?_
  · refine List.nodup_append.2 ⟨hnodup, List.nodup_singleton _, ?_⟩
    rintro handle hmem other hother rfl
    rw [List.mem_singleton.1 hother] at hmem
    exact hstore.not_hasIssued_fresh hroom item (hissued _ hmem)
  · intro handle hmem
    rcases List.mem_append.1 hmem with hold | hnew
    · exact hcontinues.hasIssued handle (hissued handle hold)
    · exact List.mem_singleton.1 hnew ▸ hfresh

theorem keepIf (h : picking.Distinct store) (test : Handle → Bool) :
    (picking.keepIf test).Distinct store := by
  constructor
  all_goals
    intro name handles hlist
    rw [Picking.keepIf, NameMap.get?_map, Option.map_eq_some_iff] at hlist
    obtain ⟨found, hfound, rfl⟩ := hlist
  · exact (h.nodup name found hfound).filter test
  · exact fun handle hmem => h.hasIssued name found hfound handle (List.mem_filter.1 hmem).1

end Distinct

end Picking

end SceneLogic

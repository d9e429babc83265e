import SceneLogic.Proofs.Objects.StoreInvariant

/-!
# The balance of the store

However many instances a store comes to hold, each of its slots holds one or is listed as
vacant.  This is less than the invariant of the store, which also says that the slots can
be numbered; it is kept by every update without any bound, and it is enough to tell that a
handle is new: while there is room for one more instance, a new one goes to a vacant slot
or to a slot with a number of its own.

## Main definitions

* `Store.Balanced` — each slot is occupied or vacant.

## Main statements

* `Store.Balanced.insert`, `Store.Balanced.destroy`, `Store.Balanced.modify` — the updates
  keep the balance.
* `Store.Balanced.get?_fresh` — the handle of an inserted instance named nothing before.
* `Store.isAlive_insert`, `Store.isAlive_modify`, `Store.isAlive_destroy` — what lives on.
-/

namespace SceneLogic

namespace Store

variable {store : Store}

/-- The vacant slots are listed once each, and all the others hold an instance. -/
structure Balanced (store : Store) : Prop where
  vacant_nodup : store.vacant.Nodup
  slot_of_vacant : ∀ number ∈ store.vacant,
    ∃ generation, store.slots[number.toNat]? = some ⟨generation, none⟩
  length_eq : store.slots.length = store.occupied + store.vacant.length

theorem balanced_empty : (∅ : Store).Balanced where
  vacant_nodup := List.nodup_nil
  slot_of_vacant _ hnumber := absurd hnumber List.not_mem_nil
  length_eq := rfl

namespace Balanced

/-- Setting one slot keeps the balance, if the slots that stay vacant are other slots and
the number of vacant slots follows that of the occupied ones. -/
theorem of_set (hstore : store.Balanced) {number : UInt32} {old new : Slot}
    {vacant : List UInt32} {live : Nat} (hslot : store.slots[number.toNat]? = some old)
    (hnodup : vacant.Nodup)
    (hvacant : ∀ other ∈ vacant,
      if other = number then new.content = none else other ∈ store.vacant)
    (hlength : vacant.length + (if new.content.isSome then 1 else 0) =
      store.vacant.length + if old.content.isSome then 1 else 0) :
    Balanced ⟨store.slots.set number.toNat new, vacant, live⟩ where
  vacant_nodup := hnodup
  slot_of_vacant other hother := by
    have hkept := hvacant other hother
    rw [getElem?_set_number hslot]
    split at hkept
    next heq =>
      rw [if_pos heq]
      obtain ⟨generation, content⟩ := new
      exact ⟨generation, by rw [show content = none from hkept]⟩
    next hne =>
      rw [if_neg hne]
      exact hstore.slot_of_vacant other hkept
  length_eq := by
    have hcount := countP_set_add hslot (·.content.isSome) new
    have hlength_eq := hstore.length_eq
    simp only [occupied, List.length_set] at hlength_eq ⊢
    omega

theorem insert (hstore : store.Balanced) (item : Instance) :
    (store.insert item).2.Balanced := by
  cases hvacant : store.vacant with
  | nil =>
    have hlength := hstore.length_eq
    simp only [hvacant, occupied, List.length_nil] at hlength
    refine ⟨?_, ?_, ?_⟩
    · simp [Store.insert, hvacant]
    · simp [Store.insert, hvacant]
    · simp [Store.insert, hvacant, occupied, List.countP_append, hlength]
  | cons number vacant =>
    obtain ⟨generation, hslot⟩ := hstore.slot_of_vacant number (by simp [hvacant])
    have hnodup := hstore.vacant_nodup
    rw [hvacant, List.nodup_cons] at hnodup
    rw [insert_of_vacant hvacant hslot]
    apply hstore.of_set hslot hnodup.2 _ (by simp [hvacant])
    intro other hother
    have hne : other ≠ number := fun heq => hnodup.1 (heq ▸ hother)
    rw [if_neg hne, hvacant]
    exact List.mem_cons_of_mem _ hother

/-- The slot of a live handle is not listed as vacant. -/
theorem slot_not_mem_vacant (hstore : store.Balanced) {handle : Handle} {item : Instance}
    (hitem : store.get? handle = some item) : handle.slot ∉ store.vacant := by
  intro hmem
  obtain ⟨generation, hslot⟩ := hstore.slot_of_vacant handle.slot hmem
  rw [get?_eq_some.1 hitem] at hslot
  simp at hslot

theorem destroy (hstore : store.Balanced) (handle : Handle) :
    (store.destroy handle).2.Balanced := by
  cases hitem : store.get? handle with
  | none => rwa [destroy_of_dead hitem]
  | some item =>
    rw [destroy_of_get? hitem]
    apply hstore.of_set (get?_eq_some.1 hitem)
      (List.nodup_cons.2 ⟨hstore.slot_not_mem_vacant hitem, hstore.vacant_nodup⟩) _ (by simp)
    intro other hother
    by_cases heq : other = handle.slot
    · simp [heq]
    · simpa [heq] using hother

theorem modify (hstore : store.Balanced) (handle : Handle) (change : Instance → Instance) :
    (store.modify handle change).Balanced := by
  cases hitem : store.get? handle with
  | none => rwa [modify_of_dead hitem]
  | some item =>
    rw [modify_of_get? hitem]
    apply hstore.of_set (get?_eq_some.1 hitem) hstore.vacant_nodup _ (by simp)
    intro other hother
    have hne : other ≠ handle.slot := fun heq => hstore.slot_not_mem_vacant hitem (heq ▸ hother)
    rwa [if_neg hne]

/-- One more slot is occupied after an insertion. -/
theorem occupied_insert (hstore : store.Balanced) (item : Instance) :
    (store.insert item).2.occupied = store.occupied + 1 := by
  have hafter := (hstore.insert item).length_eq
  have hbefore := hstore.length_eq
  have hslots : (store.insert item).2.slots.length + store.vacant.length =
      store.slots.length + (store.insert item).2.vacant.length + 1 := by
    cases hvacant : store.vacant with
    | nil => simp [Store.insert, hvacant]
    | cons number vacant => simp [Store.insert, hvacant]; omega
  omega

/-- While there is room for one more instance, the handle of an inserted instance named
nothing before. -/
theorem get?_fresh (hstore : store.Balanced) (hroom : store.occupied < UInt32.size)
    (item : Instance) : store.get? (store.insert item).1 = none := by
  cases hvacant : store.vacant with
  | nil =>
    have hlength : store.slots.length < UInt32.size := by
      have hlength_eq := hstore.length_eq
      simp only [hvacant, List.length_nil] at hlength_eq
      omega
    have hnumber : (UInt32.ofNat store.slots.length).toNat = store.slots.length :=
      UInt32.toNat_ofNat_of_lt' hlength
    simp [insert_of_full hvacant hlength, get?, slot?, hnumber]
  | cons number vacant =>
    obtain ⟨generation, hslot⟩ := hstore.slot_of_vacant number (by simp [hvacant])
    simp [insert_of_vacant hvacant hslot, get?, slot?, hslot, Option.filter]

end Balanced

/-! ## What lives on -/

/-- No instance ends by the insertion of another, whatever the state of the store. -/
theorem isAlive_insert (item : Instance) {handle : Handle}
    (halive : store.isAlive handle = true) : (store.insert item).2.isAlive handle = true := by
  obtain ⟨found, hfound⟩ := isAlive_iff.1 halive
  rw [get?_eq_some] at hfound
  rw [isAlive_iff]
  cases hvacant : store.vacant with
  | nil =>
    have hlt := (List.getElem?_eq_some_iff.1 hfound).1
    refine ⟨found, get?_eq_some.2 ?_⟩
    simpa [Store.insert, hvacant, List.getElem?_append_left hlt] using hfound
  | cons number vacant =>
    by_cases hnumber : number.toNat = handle.slot.toNat
    · refine ⟨item, get?_eq_some.2 ?_⟩
      simp [Store.insert, hvacant, hnumber, hfound]
    · refine ⟨found, get?_eq_some.2 ?_⟩
      simp [Store.insert, hvacant, hnumber, hfound]

/-- Changing an instance ends none. -/
theorem isAlive_modify (store : Store) (handle other : Handle) (change : Instance → Instance) :
    (store.modify handle change).isAlive other = store.isAlive other := by
  rw [isAlive, isAlive, get?_modify]
  by_cases heq : other = handle
  · simp [heq]
  · simp [heq]

/-- Destroying ends the instance that the handle names, and no other. -/
theorem isAlive_destroy (store : Store) (handle other : Handle) :
    (store.destroy handle).2.isAlive other = (decide (other ≠ handle) && store.isAlive other) := by
  rw [isAlive, isAlive, get?_destroy]
  by_cases heq : other = handle
  · simp [heq]
  · simp [heq]

end Store

end SceneLogic

import SceneLogic.Proofs.Objects.StoreHistory

/-!
# Handles that were given out

A handle that a store gave out names its instance, and after the instance has ended it
names nothing.  It never comes to name another instance, as long as the slots can be
numbered and no slot comes back to an earlier generation: until then a slot is in a later
generation than the handles to its former instances, and a new handle differs from all
that were given out before.

## Main definitions

* `Store.KeepsApart` — changes of a store that keep handles apart.
* `Store.HasIssued` — the handles that a store has given out, as the slots tell them.
* `Store.IssuedBy` — the handles that were given out along a history of updates.

## Main statements

* `Store.WellFormed.not_hasIssued_fresh` — a new handle was not given out before.
* `Store.HasIssued.insert`, `Store.HasIssued.modify`, `Store.HasIssued.destroy` — what was
  given out stays so.
* `Store.IssuedBy.hasIssued` — the slots know the handles of a history.
-/

namespace SceneLogic

namespace Store

variable {store : Store} {handle : Handle}

/-! ## Changes that keep handles apart -/

/-- The generation of the slot at a position, zero if there is none. -/
def generationAt (store : Store) (index : Nat) : UInt32 :=
  (store.slots[index]?.map (·.generation)).getD 0

theorem generationAt_of_getElem? {index : Nat} {slot : Slot}
    (hslot : store.slots[index]? = some slot) : store.generationAt index = slot.generation := by
  simp [generationAt, hslot]

/-- A change after which all slots can be numbered, and by which no slot has come back to an
earlier generation. -/
structure KeepsApart (before after : Store) : Prop where
  length_le : after.slots.length ≤ UInt32.size
  generationAt_le : ∀ index < before.slots.length,
    before.generationAt index ≤ after.generationAt index

instance (before after : Store) : Decidable (before.KeepsApart after) :=
  decidable_of_iff (after.slots.length ≤ UInt32.size ∧
      ∀ index < before.slots.length, before.generationAt index ≤ after.generationAt index)
    ⟨fun h => ⟨h.1, h.2⟩, fun h => ⟨h.length_le, h.generationAt_le⟩⟩

theorem length_destroy (store : Store) (handle : Handle) :
    (store.destroy handle).2.slots.length = store.slots.length := by
  unfold destroy
  split <;> simp

/-- Destroying an instance keeps handles apart if its slot has a later generation left. -/
theorem KeepsApart.lt_add_one {item : Instance}
    (hkept : store.KeepsApart (store.destroy handle).2) (hitem : store.get? handle = some item) :
    handle.generation < handle.generation + 1 := by
  have hslot := get?_eq_some.1 hitem
  have hlt := (List.getElem?_eq_some_iff.1 hslot).1
  have hle := hkept.generationAt_le handle.slot.toNat hlt
  rw [generationAt_of_getElem? hslot, destroy_of_get? hitem, generationAt,
    List.getElem?_set_self hlt] at hle
  rw [UInt32.lt_iff_toNat_lt]
  rw [UInt32.le_iff_toNat_le] at hle
  simp only [Option.map_some, Option.getD_some, UInt32.toNat_add] at hle ⊢
  have hsize := handle.generation.toNat_lt
  simp only [UInt32.reduceToNat] at hle ⊢
  omega

/-! ## What was given out -/

/-- The store has given the handle out: its slot holds the instance, or is in a later
generation. -/
def HasIssued (store : Store) (handle : Handle) : Prop :=
  ∃ slot, store.slots[handle.slot.toNat]? = some slot ∧
    (handle.generation < slot.generation ∨
      handle.generation = slot.generation ∧ slot.content.isSome = true)

theorem hasIssued_of_isAlive (halive : store.isAlive handle = true) : store.HasIssued handle := by
  obtain ⟨item, hitem⟩ := isAlive_iff.1 halive
  exact ⟨_, get?_eq_some.1 hitem, .inr ⟨rfl, rfl⟩⟩

/-- What was given out stays so if one slot is set, to a later generation or to an instance
in the same one. -/
theorem HasIssued.of_set (hissued : store.HasIssued handle) {number : UInt32} {old new : Slot}
    {vacant : List UInt32} {live : Nat} (hslot : store.slots[number.toNat]? = some old)
    (hnew : old.generation < new.generation ∨
      old.generation = new.generation ∧ new.content.isSome = true) :
    HasIssued ⟨store.slots.set number.toNat new, vacant, live⟩ handle := by
  obtain ⟨found, hfound, hearlier⟩ := hissued
  have hset := getElem?_set_number hslot new handle.slot
  by_cases heq : handle.slot = number
  · subst heq
    obtain rfl : found = old := Option.some.inj (hfound.symm.trans hslot)
    rw [if_pos rfl] at hset
    refine ⟨new, hset, ?_⟩
    have hle : handle.generation ≤ found.generation :=
      hearlier.elim UInt32.le_of_lt fun h => h.1 ▸ UInt32.le_refl _
    rcases hnew with hlater | ⟨hsame, hcontent⟩
    · exact .inl (UInt32.lt_of_le_of_lt hle hlater)
    · rw [← hsame]
      exact hearlier.imp_right fun h => ⟨h.1, hcontent⟩
  · rw [if_neg heq, hfound] at hset
    exact ⟨found, hset, hearlier⟩

theorem HasIssued.insert (hissued : store.HasIssued handle) (hstore : store.WellFormed)
    (hroom : store.live < UInt32.size) (item : Instance) :
    (store.insert item).2.HasIssued handle := by
  obtain ⟨number, vacant, generation, -, hslot, hinsert⟩ | ⟨-, -, hinsert⟩ :=
    hstore.insert_cases hroom item
  · rw [hinsert]
    exact hissued.of_set hslot (.inr ⟨rfl, rfl⟩)
  · obtain ⟨slot, hslot, hearlier⟩ := hissued
    have hlt := (List.getElem?_eq_some_iff.1 hslot).1
    rw [hinsert]
    exact ⟨slot, (List.getElem?_append_left hlt).trans hslot, hearlier⟩

theorem HasIssued.modify (hissued : store.HasIssued handle) (other : Handle)
    (change : Instance → Instance) : (store.modify other change).HasIssued handle := by
  cases hitem : store.get? other with
  | none => rwa [modify_of_dead hitem]
  | some item =>
    rw [modify_of_get? hitem]
    exact hissued.of_set (get?_eq_some.1 hitem) (.inr ⟨rfl, rfl⟩)

theorem HasIssued.destroy (hissued : store.HasIssued handle) {other : Handle}
    (hkept : store.KeepsApart (store.destroy other).2) :
    (store.destroy other).2.HasIssued handle := by
  cases hitem : store.get? other with
  | none => rwa [destroy_of_dead hitem]
  | some item =>
    have hlater := hkept.lt_add_one hitem
    rw [destroy_of_get? hitem]
    exact hissued.of_set (get?_eq_some.1 hitem) (.inl hlater)

namespace WellFormed

/-- Where the slots can be numbered after an insertion, there was room for it. -/
theorem live_lt (hstore : store.WellFormed) {item : Instance}
    (hlength : (store.insert item).2.slots.length ≤ UInt32.size) : store.live < UInt32.size := by
  have hoccupied := hstore.occupied_insert item
  have hle := (store.insert item).2.occupied_le_length
  rw [hstore.live_eq]
  omega

/-- A new handle was not given out before. -/
theorem not_hasIssued_fresh (hstore : store.WellFormed) (hroom : store.live < UInt32.size)
    (item : Instance) : ¬ store.HasIssued (store.insert item).1 := by
  rintro ⟨found, hfound, hearlier⟩
  obtain ⟨number, vacant, generation, -, hslot, hinsert⟩ | ⟨-, hlength, hinsert⟩ :=
    hstore.insert_cases hroom item
  · rw [hinsert] at hfound hearlier
    obtain rfl : ⟨generation, none⟩ = found := Option.some.inj (hslot.symm.trans hfound)
    rcases hearlier with hlater | ⟨_, hcontent⟩
    · exact UInt32.lt_irrefl _ hlater
    · cases hcontent
  · rw [hinsert, UInt32.toNat_ofNat_of_lt' hlength, List.getElem?_eq_none (Nat.le_refl _)] at hfound
    cases hfound

/-- After an insertion the new handle is alive, and the others are as they were. -/
theorem isAlive_insert (hstore : store.WellFormed) (hroom : store.live < UInt32.size)
    (item : Instance) (handle : Handle) :
    (store.insert item).2.isAlive handle =
      (decide (handle = (store.insert item).1) || store.isAlive handle) := by
  rw [isAlive, isAlive, hstore.get?_insert hroom]
  split
  next heq => simp [heq]
  next hne => simp [hne]

end WellFormed

end Store

/-! ## Histories -/

/-- The handle that an update of a store gives out, if it does. -/
def StoreUpdate.issued (store : Store) : StoreUpdate → List Handle
  | create object => [(store.create object).1]
  | insert item => [(store.insert item).1]
  | modify _ _ | destroy _ => []

namespace Store

variable {store : Store}

/-- The handles that were given out by updates of a store, which was empty before and kept
handles apart ever since. -/
inductive IssuedBy : List Handle → Store → Prop where
  | start : IssuedBy [] ∅
  | update {handles : List Handle} {store : Store} (hissued : IssuedBy handles store)
      (update : StoreUpdate) (hkept : store.KeepsApart (update.apply store)) :
      IssuedBy (handles ++ update.issued store) (update.apply store)

theorem IssuedBy.wellFormed {handles : List Handle} (hissued : IssuedBy handles store) :
    store.WellFormed := by
  induction hissued with
  | start => exact wellFormed_empty
  | @update handles store _ update hkept ih =>
    exact (ih.apply update (Nat.le_trans (occupied_le_length _) hkept.length_le)).1

/-- The slots of a store know the handles that it gave out. -/
theorem IssuedBy.hasIssued {handles : List Handle} (hissued : IssuedBy handles store) :
    ∀ handle ∈ handles, store.HasIssued handle := by
  induction hissued with
  | start => exact fun _ hmem => absurd hmem List.not_mem_nil
  | @update handles store hbefore update hkept ih =>
    have hstore := hbefore.wellFormed
    have hinserted : ∀ item, (store.insert item).2.slots.length ≤ UInt32.size →
        ∀ handle ∈ handles ++ [(store.insert item).1], (store.insert item).2.HasIssued handle := by
      intro item hlength handle hmem
      have hroom := hstore.live_lt hlength
      rcases List.mem_append.1 hmem with hold | hfresh
      · exact (ih handle hold).insert hstore hroom item
      · apply hasIssued_of_isAlive
        rw [List.mem_singleton.1 hfresh, hstore.isAlive_insert hroom, decide_eq_true rfl,
          Bool.true_or]
    cases update with
    | create object => exact hinserted (.ofObject object) hkept.length_le
    | insert item => exact hinserted item hkept.length_le
    | modify other change =>
      simp only [StoreUpdate.issued, List.append_nil]
      exact fun handle hmem => (ih handle hmem).modify other change
    | destroy other =>
      simp only [StoreUpdate.issued, List.append_nil]
      exact fun handle hmem => (ih handle hmem).destroy hkept

/-! ## Destroying several instances -/

/-- A vacant slot stays as it is. -/
theorem getElem?_destroy_of_vacant {index : Nat} {generation : UInt32}
    (hslot : store.slots[index]? = some ⟨generation, none⟩) (handle : Handle) :
    (store.destroy handle).2.slots[index]? = some ⟨generation, none⟩ := by
  cases hitem : store.get? handle with
  | none => rwa [destroy_of_dead hitem]
  | some item =>
    have hne : handle.slot.toNat ≠ index := by
      rintro rfl
      rw [get?_eq_some.1 hitem] at hslot
      cases hslot
    rw [destroy_of_get? hitem, List.getElem?_set_ne hne, hslot]

/-- Destroy one instance after the other. -/
def destroyAll (store : Store) (handles : List Handle) : Store :=
  handles.foldl (fun store handle => (store.destroy handle).2) store

theorem length_destroyAll (store : Store) (handles : List Handle) :
    (store.destroyAll handles).slots.length = store.slots.length := by
  induction handles generalizing store with
  | nil => rfl
  | cons handle rest ih => exact (ih _).trans (length_destroy store handle)

theorem getElem?_destroyAll_of_vacant {index : Nat} {generation : UInt32}
    (hslot : store.slots[index]? = some ⟨generation, none⟩) (handles : List Handle) :
    (store.destroyAll handles).slots[index]? = some ⟨generation, none⟩ := by
  induction handles generalizing store with
  | nil => exact hslot
  | cons handle rest ih => exact ih (getElem?_destroy_of_vacant hslot handle)

/-- Destroying several instances keeps handles apart from the first to the last: a slot is
vacated once, so that its generation at the end tells whether it came back to an earlier
one in between. -/
theorem KeepsApart.of_destroyAll {handle : Handle} {rest : List Handle}
    (hkept : store.KeepsApart (store.destroyAll (handle :: rest))) :
    store.KeepsApart (store.destroy handle).2 ∧
      (store.destroy handle).2.KeepsApart (store.destroyAll (handle :: rest)) := by
  have hlength : store.slots.length ≤ UInt32.size :=
    length_destroyAll store (handle :: rest) ▸ hkept.length_le
  cases hitem : store.get? handle with
  | none =>
    rw [destroy_of_dead hitem]
    exact ⟨⟨hlength, fun _ _ => UInt32.le_refl _⟩, hkept⟩
  | some item =>
    have hlt := (List.getElem?_eq_some_iff.1 (get?_eq_some.1 hitem)).1
    have hvacated : (store.destroy handle).2.slots[handle.slot.toNat]? =
        some ⟨handle.generation + 1, none⟩ := by
      rw [destroy_of_get? hitem]
      exact List.getElem?_set_self hlt
    have hlast : (store.destroyAll (handle :: rest)).generationAt handle.slot.toNat =
        (store.destroy handle).2.generationAt handle.slot.toNat := by
      have hkeeps := getElem?_destroyAll_of_vacant hvacated rest
      rw [generationAt_of_getElem? hvacated]
      exact generationAt_of_getElem? hkeeps
    have hothers : ∀ index, index ≠ handle.slot.toNat →
        (store.destroy handle).2.generationAt index = store.generationAt index := by
      intro index hne
      rw [destroy_of_get? hitem, generationAt, List.getElem?_set_ne (Ne.symm hne), generationAt]
    constructor
    · refine ⟨length_destroy store handle ▸ hlength, fun index hindex => ?_⟩
      by_cases hslot : index = handle.slot.toNat
      · subst hslot
        exact hlast ▸ hkept.generationAt_le _ hindex
      · rw [hothers index hslot]
        exact UInt32.le_refl _
    · refine ⟨hkept.length_le, fun index hindex => ?_⟩
      by_cases hslot : index = handle.slot.toNat
      · subst hslot
        rw [hlast]
        exact UInt32.le_refl _
      · rw [hothers index hslot]
        exact hkept.generationAt_le index (length_destroy store handle ▸ hindex)

end Store

end SceneLogic

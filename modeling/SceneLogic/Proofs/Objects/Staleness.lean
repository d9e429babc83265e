import Mathlib.Data.Nat.ModEq
import SceneLogic.Proofs.Objects.Issued
import SceneLogic.Proofs.Objects.StoreBalance

/-!
# How long a handle stays stale

Each time the instance of a slot is destroyed the slot goes on to its next generation, and
nothing else changes a generation.  So the generation of a slot is the number of times that
it was vacated, as far as 32 bits go.  A handle to a former instance names nothing until the
generations of its slot have come round, and no handle is given out twice before that.

## Main definitions

* `StoreUpdate.vacates`, `Store.timesVacated` — how often updates vacate a slot.

## Main statements

* `Store.WellFormed.generationAt_apply` — what one update does to the generation of a slot.
* `Store.WellFormed.generationAt_foldl` — what a history does to it.
* `Store.staleness_after` — which handles are alive, which stay stale, and which are new.
-/

namespace SceneLogic

/-- Whether an update takes an instance out of a slot. -/
def StoreUpdate.vacates (store : Store) (number : UInt32) : StoreUpdate → Bool
  | destroy handle => decide (handle.slot = number) && (store.destroy handle).1.isSome
  | create _ | insert _ | modify _ _ => false

/-- An update that gives out a handle inserts an instance under it. -/
theorem StoreUpdate.exists_insert_of_issued {store : Store} {update : StoreUpdate}
    {handle : Handle} (hissued : handle ∈ update.issued store) :
    ∃ item, update.apply store = (store.insert item).2 ∧ (store.insert item).1 = handle := by
  cases update with
  | create object => exact ⟨.ofObject object, rfl, (List.mem_singleton.1 hissued).symm⟩
  | insert item => exact ⟨item, rfl, (List.mem_singleton.1 hissued).symm⟩
  | modify _ _ | destroy _ => cases hissued

/-- A word is a number modulo the number of words. -/
theorem ofNat_eq_iff_modEq {count : Nat} {word : UInt32} :
    UInt32.ofNat count = word ↔ count ≡ word.toNat [MOD UInt32.size] := by
  have hword : word.toNat % UInt32.size = word.toNat := Nat.mod_eq_of_lt word.toNat_lt
  rw [← UInt32.toNat_inj, UInt32.toNat_ofNat', Nat.ModEq, hword]

namespace Store

variable {store : Store} {handle : Handle}

/-! ## Counting -/

/-- How often some updates of a store take an instance out of a slot. -/
def timesVacated (store : Store) (number : UInt32) : List StoreUpdate → Nat
  | [] => 0
  | update :: updates =>
    (if update.vacates store number then 1 else 0) +
      (update.apply store).timesVacated number updates

theorem timesVacated_append (store : Store) (number : UInt32) (first rest : List StoreUpdate) :
    store.timesVacated number (first ++ rest) =
      store.timesVacated number first +
        (first.foldl StoreUpdate.apply store).timesVacated number rest := by
  induction first generalizing store with
  | nil => exact (Nat.zero_add _).symm
  | cons update first ih =>
    rw [List.cons_append, timesVacated, timesVacated, ih, List.foldl_cons, Nat.add_assoc]

theorem peakFrom_append (store : Store) (first rest : List StoreUpdate) :
    store.peakFrom (first ++ rest) =
      max (store.peakFrom first) ((first.foldl StoreUpdate.apply store).peakFrom rest) := by
  induction first generalizing store with
  | nil => exact (Nat.max_eq_right (occupied_le_peakFrom store rest)).symm
  | cons update first ih =>
    rw [List.cons_append, peakFrom, peakFrom, ih, List.foldl_cons, Nat.max_assoc]

theorem after_append (first rest : List StoreUpdate) :
    after (first ++ rest) = rest.foldl StoreUpdate.apply (after first) :=
  List.foldl_append

/-- A history with room for all that a store holds has it in each of its parts. -/
theorem peak_append_le {first rest : List StoreUpdate} {bound : Nat}
    (hpeak : peak (first ++ rest) ≤ bound) :
    peak first ≤ bound ∧ (after first).peakFrom rest ≤ bound := by
  rw [peak, peakFrom_append] at hpeak
  exact Nat.max_le.1 hpeak

/-! ## Generations -/

namespace WellFormed

/-- A new handle has the generation that its slot had before. -/
theorem generation_fresh (hstore : store.WellFormed) (hroom : store.live < UInt32.size)
    (item : Instance) :
    store.generationAt (store.insert item).1.slot.toNat = (store.insert item).1.generation := by
  obtain ⟨number, vacant, generation, -, hslot, hinsert⟩ | ⟨-, hlength, hinsert⟩ :=
    hstore.insert_cases hroom item
  · rw [hinsert]
    exact generationAt_of_getElem? hslot
  · rw [hinsert, UInt32.toNat_ofNat_of_lt' hlength, generationAt,
      List.getElem?_eq_none (Nat.le_refl _)]
    rfl

/-- There was room for an insertion if there is room for what the store holds after it. -/
theorem live_lt_of_occupied_insert (hstore : store.WellFormed) {item : Instance}
    (hroom : (store.insert item).2.occupied ≤ UInt32.size) : store.live < UInt32.size := by
  rw [hstore.live_eq]
  have hoccupied := hstore.occupied_insert item
  omega

theorem generationAt_insert (hstore : store.WellFormed) (hroom : store.live < UInt32.size)
    (item : Instance) (number : UInt32) :
    (store.insert item).2.generationAt number.toNat = store.generationAt number.toNat := by
  have hslots := (hstore.slots_insert hroom item).2 number
  by_cases hnumber : number = (store.insert item).1.slot
  · rw [if_pos hnumber] at hslots
    rw [generationAt_of_getElem? hslots, hnumber, hstore.generation_fresh hroom]
  · rw [if_neg hnumber] at hslots
    rw [generationAt, hslots, generationAt]

end WellFormed

theorem generationAt_modify (store : Store) (handle : Handle) (change : Instance → Instance)
    (number : UInt32) :
    (store.modify handle change).generationAt number.toNat = store.generationAt number.toNat := by
  cases hitem : store.get? handle with
  | none => rw [modify_of_dead hitem]
  | some item =>
    have hslot := get?_eq_some.1 hitem
    rw [modify_of_get? hitem, generationAt, getElem?_set_number hslot, generationAt]
    by_cases hnumber : number = handle.slot
    · rw [if_pos hnumber, hnumber, hslot]
      rfl
    · rw [if_neg hnumber]

theorem generationAt_destroy (store : Store) (handle : Handle) (number : UInt32) :
    (store.destroy handle).2.generationAt number.toNat =
      store.generationAt number.toNat +
        if (StoreUpdate.destroy handle).vacates store number then 1 else 0 := by
  cases hitem : store.get? handle with
  | none => simp [StoreUpdate.vacates, destroy_of_dead hitem, hitem]
  | some item =>
    have hslot := get?_eq_some.1 hitem
    have hset := getElem?_set_number hslot ⟨handle.generation + 1, none⟩ number
    by_cases hnumber : number = handle.slot
    · rw [if_pos hnumber] at hset
      rw [destroy_of_get? hitem, generationAt_of_getElem? hset, hnumber,
        generationAt_of_getElem? hslot]
      simp [StoreUpdate.vacates, hitem]
    · rw [if_neg hnumber] at hset
      rw [destroy_of_get? hitem, generationAt, hset, generationAt]
      simp [StoreUpdate.vacates, Ne.symm hnumber]

namespace WellFormed

/-- **One update** takes a slot to its next generation if it vacates it, and leaves the
generation as it is otherwise. -/
theorem generationAt_apply (hstore : store.WellFormed) (update : StoreUpdate)
    (hroom : (update.apply store).occupied ≤ UInt32.size) (number : UInt32) :
    (update.apply store).generationAt number.toNat =
      store.generationAt number.toNat + if update.vacates store number then 1 else 0 := by
  have hinsert : ∀ item, (store.insert item).2.occupied ≤ UInt32.size →
      (store.insert item).2.generationAt number.toNat = store.generationAt number.toNat + 0 := by
    intro item hitem
    rw [UInt32.add_zero]
    exact hstore.generationAt_insert (hstore.live_lt_of_occupied_insert hitem) item number
  cases update with
  | create object => exact hinsert (.ofObject object) hroom
  | insert item => exact hinsert item hroom
  | modify handle change =>
    exact (generationAt_modify store handle change number).trans (UInt32.add_zero _).symm
  | destroy handle => exact generationAt_destroy store handle number

/-- **A history** takes a slot one generation further for each time that it vacates it. -/
theorem generationAt_foldl (updates : List StoreUpdate) (hstore : store.WellFormed)
    (hpeak : store.peakFrom updates ≤ UInt32.size) (number : UInt32) :
    (updates.foldl StoreUpdate.apply store).generationAt number.toNat =
      store.generationAt number.toNat + UInt32.ofNat (store.timesVacated number updates) := by
  induction updates generalizing store with
  | nil => exact (UInt32.add_zero _).symm
  | cons update updates ih =>
    have hnext := occupied_le_peakFrom (update.apply store) updates
    simp only [peakFrom] at hpeak
    have hstep := hstore.generationAt_apply update (by omega) number
    have hrest := ih (hstore.apply update (by omega)).1 (by omega)
    rw [List.foldl_cons, hrest, hstep, timesVacated, UInt32.ofNat_add, UInt32.add_assoc]
    congr 2
    split <;> rfl

/-- A slot is back in its generation if the generations have come round, and only then. -/
theorem generationAt_foldl_eq_iff (updates : List StoreUpdate) (hstore : store.WellFormed)
    (hpeak : store.peakFrom updates ≤ UInt32.size) (number : UInt32) :
    (updates.foldl StoreUpdate.apply store).generationAt number.toNat =
        store.generationAt number.toNat ↔
      UInt32.size ∣ store.timesVacated number updates := by
  rw [hstore.generationAt_foldl updates hpeak, UInt32.add_eq_left, ofNat_eq_iff_modEq,
    ← Nat.modEq_zero_iff_dvd]
  rfl

end WellFormed

/-! ## Live handles -/

theorem generationAt_of_isAlive (halive : store.isAlive handle = true) :
    store.generationAt handle.slot.toNat = handle.generation := by
  obtain ⟨item, hitem⟩ := isAlive_iff.1 halive
  exact generationAt_of_getElem? (get?_eq_some.1 hitem)

/-- A handle is alive if its slot holds an instance in the generation of the handle. -/
theorem isAlive_iff_generationAt :
    store.isAlive handle = true ↔
      (∃ slot, store.slots[handle.slot.toNat]? = some slot ∧ slot.content.isSome = true) ∧
        store.generationAt handle.slot.toNat = handle.generation := by
  constructor
  · intro halive
    obtain ⟨item, hitem⟩ := isAlive_iff.1 halive
    exact ⟨⟨_, get?_eq_some.1 hitem, rfl⟩, generationAt_of_isAlive halive⟩
  · rintro ⟨⟨⟨generation, content⟩, hslot, hcontent⟩, hgeneration⟩
    obtain ⟨item, rfl⟩ := Option.isSome_iff_exists.1 hcontent
    rw [generationAt_of_getElem? hslot] at hgeneration
    exact isAlive_iff.2 ⟨item, get?_eq_some.2 (hgeneration ▸ hslot)⟩

/-- An update that does not vacate the slot of a live handle leaves the handle alive. -/
theorem isAlive_apply {update : StoreUpdate} (halive : store.isAlive handle = true)
    (hkept : update.vacates store handle.slot = false) :
    (update.apply store).isAlive handle = true := by
  cases update with
  | create object => exact isAlive_insert (.ofObject object) halive
  | insert item => exact isAlive_insert item halive
  | modify other change => exact (isAlive_modify store other handle change).trans halive
  | destroy other =>
    have hne : handle ≠ other := by
      rintro rfl
      rw [isAlive] at halive
      simp [StoreUpdate.vacates, halive] at hkept
    rw [StoreUpdate.apply, isAlive_destroy, halive, decide_eq_true hne, Bool.true_and]

/-- A handle stays alive for as long as its slot is not vacated. -/
theorem isAlive_foldl {updates : List StoreUpdate} (halive : store.isAlive handle = true)
    (hkept : store.timesVacated handle.slot updates = 0) :
    (updates.foldl StoreUpdate.apply store).isAlive handle = true := by
  induction updates generalizing store with
  | nil => exact halive
  | cons update updates ih =>
    rw [timesVacated, Nat.add_eq_zero_iff] at hkept
    have hstep : update.vacates store handle.slot = false := by simpa using hkept.1
    exact ih (isAlive_apply halive hstep) hkept.2

/-- A handle that is given out is alive then. -/
theorem WellFormed.isAlive_of_issued (hstore : store.WellFormed) {update : StoreUpdate}
    (hroom : (update.apply store).occupied ≤ UInt32.size) (hissued : handle ∈ update.issued store) :
    (update.apply store).isAlive handle = true := by
  obtain ⟨item, happly, rfl⟩ := StoreUpdate.exists_insert_of_issued hissued
  rw [happly] at hroom ⊢
  rw [hstore.isAlive_insert (hstore.live_lt_of_occupied_insert hroom), decide_eq_true rfl,
    Bool.true_or]

/-! ## Stale handles -/

/-- A handle that was alive names nothing while its slot was vacated, but fewer than 2³²
times. -/
theorem WellFormed.get?_foldl_eq_none (updates : List StoreUpdate) (hstore : store.WellFormed)
    (hpeak : store.peakFrom updates ≤ UInt32.size) (halive : store.isAlive handle = true)
    (hvacated : 0 < store.timesVacated handle.slot updates)
    (hfew : store.timesVacated handle.slot updates < UInt32.size) :
    (updates.foldl StoreUpdate.apply store).get? handle = none := by
  rw [Option.eq_none_iff_forall_ne_some]
  intro item hitem
  have hlater := generationAt_of_isAlive (isAlive_iff.2 ⟨item, hitem⟩)
  have hround := (hstore.generationAt_foldl_eq_iff updates hpeak handle.slot).1
    (hlater.trans (generationAt_of_isAlive halive).symm)
  exact absurd (Nat.le_of_dvd hvacated hround) (Nat.not_le.2 hfew)

/-- A handle that was alive is not given out again before the generations of its slot have
come round: until its slot is vacated it is in use, and then the slot is in a later
generation. -/
theorem WellFormed.not_issued_foldl (updates : List StoreUpdate) (hstore : store.WellFormed)
    {update : StoreUpdate} (hpeak : store.peakFrom (updates ++ [update]) ≤ UInt32.size)
    (halive : store.isAlive handle = true)
    (hfew : store.timesVacated handle.slot updates < UInt32.size) :
    handle ∉ update.issued (updates.foldl StoreUpdate.apply store) := by
  intro hissued
  obtain ⟨item, happly, rfl⟩ := StoreUpdate.exists_insert_of_issued hissued
  rw [peakFrom_append, Nat.max_le, peakFrom, peakFrom, happly, Nat.max_le] at hpeak
  have hafter := (wellFormed_foldl updates hstore hpeak.1).1
  have hroom := hafter.live_lt_of_occupied_insert hpeak.2.2
  have hround := (hstore.generationAt_foldl_eq_iff updates hpeak.1 _).1
    ((hafter.generation_fresh hroom item).trans (generationAt_of_isAlive halive).symm)
  have hstill := isAlive_foldl halive (Nat.eq_zero_of_dvd_of_lt hround hfew)
  rw [isAlive, hafter.get?_fresh hroom item] at hstill
  cases hstill

/-- **How long a handle stays stale.**  After any updates during which a store never holds
more than 2³² instances, a handle is alive if its slot is there and holds an instance and the
number of times that the slot was vacated is the generation of the handle modulo 2³², and
only then.  So a handle whose instance was destroyed names nothing, and nothing is done by
it, until its slot was vacated 2³² times, that destruction included; and as long as a slot
was vacated fewer times than that, no two insertions give out the same handle to it. -/
theorem staleness_after (updates : List StoreUpdate) (hpeak : peak updates ≤ UInt32.size) :
    let store := after updates
    (∀ handle, store.isAlive handle = true ↔
      (∃ slot, store.slots[handle.slot.toNat]? = some slot ∧ slot.content.isSome = true) ∧
        (∅ : Store).timesVacated handle.slot updates ≡ handle.generation.toNat
          [MOD UInt32.size]) ∧
    (∀ first later handle, updates = first ++ .destroy handle :: later →
      ((after first).destroy handle).1.isSome = true →
      (after first).timesVacated handle.slot (.destroy handle :: later) < UInt32.size →
      store.get? handle = none ∧ store.isAlive handle = false ∧
        store.destroy handle = (none, store) ∧
        ∀ change, store.modify handle change = store) ∧
    ∀ first between earlier later handle,
      updates = first ++ earlier :: between ++ [later] →
      (∅ : Store).timesVacated handle.slot (first ++ earlier :: between) < UInt32.size →
      handle ∈ earlier.issued (after first) →
      handle ∉ later.issued (after (first ++ earlier :: between)) := by
  intro store
  refine ⟨fun handle => ?_, ?_, ?_⟩
  · have hgeneration := wellFormed_empty.generationAt_foldl updates hpeak handle.slot
    have hcount : store.generationAt handle.slot.toNat =
        UInt32.ofNat ((∅ : Store).timesVacated handle.slot updates) :=
      hgeneration.trans (UInt32.zero_add _)
    rw [isAlive_iff_generationAt, hcount, ofNat_eq_iff_modEq]
  · rintro first later handle rfl hsome hfew
    obtain ⟨hbefore, hrest⟩ := peak_append_le hpeak
    rw [destroy_fst] at hsome
    have hvacated : 0 < (after first).timesVacated handle.slot (.destroy handle :: later) := by
      simp [timesVacated, StoreUpdate.vacates, hsome, Nat.add_comm 1]
    have hdead : store.get? handle = none := by
      have hstale := (wellFormed_after hbefore).get?_foldl_eq_none _ hrest hsome hvacated hfew
      rwa [← after_append] at hstale
    exact ⟨hdead, by rw [isAlive, hdead]; rfl,
      Prod.ext (by rw [destroy_fst, hdead]) (destroy_of_dead hdead), modify_of_dead hdead⟩
  · rintro first between earlier later handle rfl hfew hearlier
    rw [List.append_assoc, List.cons_append] at hpeak
    obtain ⟨hbefore, hrest⟩ := peak_append_le hpeak
    rw [peakFrom, Nat.max_le] at hrest
    have hstore := wellFormed_after hbefore
    have hroom := Nat.le_trans (occupied_le_peakFrom _ _) hrest.2
    rw [timesVacated_append, timesVacated, ← after] at hfew
    rw [after_append, List.foldl_cons]
    exact (hstore.apply earlier hroom).1.not_issued_foldl between hrest.2
      (hstore.isAlive_of_issued hroom hearlier) (by omega)

/-- One slot holds three instances one after the other; in between the first is destroyed
again by its stale handle. -/
def recycledSlot : List StoreUpdate :=
  [.create "Coin", .destroy ⟨0, 0⟩, .create "Gem", .destroy ⟨0, 0⟩, .destroy ⟨0, 1⟩,
    .create "Coin"]

/-- The slot of `recycledSlot` was vacated twice, so the handle of the third instance is the
one of generation two; that of the first is stale, and was not given out again. -/
theorem staleness_after_recycledSlot :
    (∅ : Store).timesVacated 0 recycledSlot = 2 ∧
      (after recycledSlot).isAlive ⟨0, 2⟩ = true ∧
      (after recycledSlot).get? ⟨0, 0⟩ = none ∧
      (⟨0, 0⟩ : Handle) ∉ (StoreUpdate.create "Coin").issued (after recycledSlot.dropLast) := by
  obtain ⟨halive, hstale, hfresh⟩ := staleness_after recycledSlot (by decide)
  refine ⟨by decide, (halive ⟨0, 2⟩).2 ⟨⟨⟨2, some (.ofObject "Coin")⟩, by decide, rfl⟩, ?_⟩, ?_, ?_⟩
  · decide
  · exact (hstale [.create "Coin"] _ ⟨0, 0⟩ rfl (by decide) (by decide)).1
  · exact hfresh [] _ (.create "Coin") (.create "Coin") ⟨0, 0⟩ rfl (by decide) (by decide)

end Store

end SceneLogic

import SceneLogic.Proofs.Objects.StoreInvariant

/-!
# Histories of the store

A store is a finite map from handles to instances whose keys are new when they are
given out.  It stays one through all updates, also those by handles that name nothing,
as long as it never holds more instances than slots can be numbered.  It has as many
slots as it held instances at once.

## Main definitions

* `StoreUpdate` — an update of a store.
* `Store.after` — the store after some updates, of which there were none before.
* `Store.peak` — the most instances that it held at once.

## Main statements

* `Store.WellFormed.apply`, `Store.wellFormed_foldl` — the invariant along one update and
  along all.
* `Store.map_after` — what a store is after any updates.
* `Store.wellFormed_after_of_length_le` — the invariant, for a store with few slots at the end.
-/

namespace SceneLogic

/-- An update of a store. -/
inductive StoreUpdate where
  /-- Put a new instance of an object into the store. -/
  | create (object : String)
  /-- Put an instance into the store. -/
  | insert (item : Instance)
  /-- Change the instance that a handle names. -/
  | modify (handle : Handle) (change : Instance → Instance)
  /-- Take the instance that a handle names out of the store. -/
  | destroy (handle : Handle)

/-- Make an update. -/
def StoreUpdate.apply (store : Store) : StoreUpdate → Store
  | create object => (store.create object).2
  | insert item => (store.insert item).2
  | modify handle change => store.modify handle change
  | destroy handle => (store.destroy handle).2

namespace Store

variable {store : Store}

/-- The store after some updates, of which there were none before. -/
def after (updates : List StoreUpdate) : Store := updates.foldl StoreUpdate.apply ∅

/-- The most instances that a store holds at once, from now and through some updates. -/
def peakFrom (store : Store) : List StoreUpdate → Nat
  | [] => store.occupied
  | update :: updates => max store.occupied ((update.apply store).peakFrom updates)

/-- The most instances that a store holds at once during some updates. -/
def peak (updates : List StoreUpdate) : Nat := peakFrom ∅ updates

theorem occupied_le_peakFrom (store : Store) (updates : List StoreUpdate) :
    store.occupied ≤ store.peakFrom updates := by
  cases updates with
  | nil => exact Nat.le_refl _
  | cons update updates => exact Nat.le_max_left _ _

/-- One more slot is occupied after an insertion. -/
theorem WellFormed.occupied_insert (hstore : store.WellFormed) (item : Instance) :
    (store.insert item).2.occupied = store.occupied + 1 := by
  cases hvacant : store.vacant with
  | nil => simp [Store.insert, hvacant, occupied, List.countP_append]
  | cons number vacant =>
    obtain ⟨generation, hslot⟩ := (hstore.mem_vacant_iff number).1 (by simp [hvacant])
    have hcount := countP_set_add hslot (·.content.isSome) ⟨generation, some item⟩
    rw [insert_of_vacant hvacant hslot]
    simpa [occupied] using hcount

/-- The store grows only when it holds more instances than ever before. -/
theorem WellFormed.length_insert (hstore : store.WellFormed) (hroom : store.live < UInt32.size)
    (item : Instance) :
    (store.insert item).2.slots.length =
      max store.slots.length (store.insert item).2.occupied := by
  have hoccupied := hstore.occupied_insert item
  obtain ⟨number, vacant, generation, -, -, hinsert⟩ | ⟨hvacant, -, hinsert⟩ :=
    hstore.insert_cases hroom item
  · have hle := occupied_le_length (store.insert item).2
    have hlength : (store.insert item).2.slots.length = store.slots.length := by simp [hinsert]
    omega
  · have hfull := hstore.occupied_of_full hvacant
    have hlength : (store.insert item).2.slots.length = store.slots.length + 1 := by simp [hinsert]
    omega

/-- Updates keep the invariant while there is room. -/
theorem WellFormed.apply (hstore : store.WellFormed) (update : StoreUpdate)
    (hroom : (update.apply store).occupied ≤ UInt32.size) :
    (update.apply store).WellFormed ∧
      (update.apply store).slots.length =
        max store.slots.length (update.apply store).occupied := by
  -- Only an insertion changes the number of slots.
  have hinsert : ∀ item, (store.insert item).2.occupied ≤ UInt32.size →
      (store.insert item).2.WellFormed ∧ (store.insert item).2.slots.length =
        max store.slots.length (store.insert item).2.occupied := by
    intro item hle
    have hlive : store.live < UInt32.size := by
      rw [hstore.live_eq]
      have hoccupied := hstore.occupied_insert item
      omega
    exact ⟨hstore.insert hlive item, hstore.length_insert hlive item⟩
  have hkept : ∀ next : Store, next.slots.length = store.slots.length →
      next.slots.length = max store.slots.length next.occupied := by
    intro next hlength
    have hle := next.occupied_le_length
    omega
  cases update with
  | create object => exact hinsert (.ofObject object) hroom
  | insert item => exact hinsert item hroom
  | modify handle change =>
    refine ⟨hstore.modify handle change, hkept _ ?_⟩
    simp only [StoreUpdate.apply, Store.modify]
    split <;> simp
  | destroy handle =>
    refine ⟨hstore.destroy handle, hkept _ ?_⟩
    simp only [StoreUpdate.apply, Store.destroy]
    split <;> simp

/-- The invariant along a history, by induction on its updates: the slots there are at
the end are those at the start, or as many as the most instances held in between. -/
theorem wellFormed_foldl (updates : List StoreUpdate) (hstore : store.WellFormed)
    (hpeak : store.peakFrom updates ≤ UInt32.size) :
    (updates.foldl StoreUpdate.apply store).WellFormed ∧
      (updates.foldl StoreUpdate.apply store).slots.length =
        max store.slots.length (store.peakFrom updates) := by
  have hle := store.occupied_le_length
  induction updates generalizing store with
  | nil =>
    refine ⟨hstore, ?_⟩
    simp only [List.foldl_nil, peakFrom]
    omega
  | cons update updates ih =>
    have hnext := occupied_le_peakFrom (update.apply store) updates
    simp only [peakFrom] at hpeak ⊢
    obtain ⟨happlied, hlength⟩ := hstore.apply update (by omega)
    obtain ⟨hafter, hslots⟩ := ih happlied (by omega) (occupied_le_length _)
    refine ⟨hafter, ?_⟩
    rw [List.foldl_cons]
    omega

/-- A store that came about by its own updates is in order. -/
theorem wellFormed_after {updates : List StoreUpdate} (hpeak : peak updates ≤ UInt32.size) :
    (after updates).WellFormed :=
  (wellFormed_foldl updates wellFormed_empty hpeak).1

/-- No update takes a slot away. -/
theorem length_le_apply (store : Store) (update : StoreUpdate) :
    store.slots.length ≤ (update.apply store).slots.length := by
  have hinsert : ∀ item, store.slots.length ≤ (store.insert item).2.slots.length := by
    intro item
    unfold Store.insert
    split <;> simp
  cases update with
  | create object => exact hinsert (.ofObject object)
  | insert item => exact hinsert item
  | modify handle change =>
    simp only [StoreUpdate.apply, Store.modify]
    split <;> simp
  | destroy handle =>
    simp only [StoreUpdate.apply, Store.destroy]
    split <;> simp

theorem length_le_foldl (store : Store) (updates : List StoreUpdate) :
    store.slots.length ≤ (updates.foldl StoreUpdate.apply store).slots.length := by
  induction updates generalizing store with
  | nil => exact Nat.le_refl _
  | cons update updates ih => exact Nat.le_trans (store.length_le_apply update) (ih _)

/-- At the end there are slots for all instances that were held at once. -/
theorem peakFrom_le_length (store : Store) (updates : List StoreUpdate) :
    store.peakFrom updates ≤ (updates.foldl StoreUpdate.apply store).slots.length := by
  induction updates generalizing store with
  | nil => exact store.occupied_le_length
  | cons update updates ih =>
    have hlength := store.length_le_foldl (update :: updates)
    exact Nat.max_le.2 ⟨Nat.le_trans store.occupied_le_length hlength, ih _⟩

/-- A store whose slots can be numbered at the end is in order. -/
theorem wellFormed_after_of_length_le {updates : List StoreUpdate}
    (hlength : (after updates).slots.length ≤ UInt32.size) : (after updates).WellFormed :=
  wellFormed_after (Nat.le_trans (peakFrom_le_length ∅ updates) hlength)

/-- **A store is a finite map with new keys.**  After any updates during which it never
holds more than 2³² instances, the vacant slots are listed once each, the instances are
counted, and there are as many slots as instances were held at once.  Inserting gives out
a handle that named nothing and changes what no other handle names; destroying yields
what the handle named, and only that handle ceases to name anything; changing an
instance changes that instance alone.  The entries are the live handles with what they
name, in increasing order of their slots, and the instances of an object are those among
them that belong to it. -/
theorem map_after (updates : List StoreUpdate) (hpeak : peak updates ≤ UInt32.size) :
    let store := after updates
    (store.WellFormed ∧ store.slots.length = peak updates) ∧
      (store.live < UInt32.size → ∀ item,
        store.get? (store.insert item).1 = none ∧
        ∀ other, (store.insert item).2.get? other =
          if other = (store.insert item).1 then some item else store.get? other) ∧
      (∀ handle,
        (store.destroy handle).1 = store.get? handle ∧
        (∀ other, (store.destroy handle).2.get? other =
          if other = handle then none else store.get? other) ∧
        (store.get? handle = none → (store.destroy handle).2 = store) ∧
        (store.get? handle ≠ none → (store.destroy handle).2.live + 1 = store.live)) ∧
      (∀ handle change other, (store.modify handle change).get? other =
        if other = handle then (store.get? handle).map change else store.get? other) ∧
      (store.entries.map (·.1.slot)).Pairwise (· < ·) ∧
      (∀ handle item, (handle, item) ∈ store.entries ↔ store.get? handle = some item) ∧
      ∀ object, store.instancesOf object =
        (store.entries.map (·.1)).filter fun handle =>
          (store.get? handle).any (·.object = object) := by
  intro store
  obtain ⟨hstore, hlength⟩ := wellFormed_foldl updates wellFormed_empty hpeak
  refine ⟨⟨hstore, ?_⟩, fun hroom item => ?_, fun handle => ?_,
    fun handle change other => store.get?_modify handle other change, hstore.pairwise_entries,
    fun handle item => hstore.mem_entries, hstore.instancesOf_eq⟩
  · exact hlength.trans (Nat.zero_max _)
  · exact ⟨hstore.get?_fresh hroom item, hstore.get?_insert hroom item⟩
  · refine ⟨store.destroy_fst handle, store.get?_destroy handle, destroy_of_dead, fun hlive => ?_⟩
    obtain ⟨item, hitem⟩ := Option.ne_none_iff_exists'.1 hlive
    exact hstore.live_destroy hitem

/-- Two instances are created and the first is destroyed, then once more by the same
handle; the third takes its slot. -/
def reusedSlot : List StoreUpdate :=
  [.create "Coin", .create "Player", .destroy ⟨0, 0⟩, .destroy ⟨0, 0⟩, .create "Coin",
    .modify ⟨0, 0⟩ (·.setVariable "value" .null), .destroy ⟨7, 3⟩]

/-- The slot of `reusedSlot` is reused once, under a new generation. -/
theorem map_after_reusedSlot :
    (after reusedSlot).slots.length = 2 ∧
      (after reusedSlot).instancesOf "Coin" = [⟨0, 1⟩] ∧
      (after reusedSlot).get? ⟨0, 0⟩ = none ∧
      (((after reusedSlot).insert (.ofObject "Gem")).2.get? ⟨0, 1⟩).isSome = true := by
  have hmap := map_after reusedSlot (by decide)
  obtain ⟨⟨-, hlength⟩, hinsert, -, -, -, -, hinstances⟩ := hmap
  refine ⟨?_, ?_, ?_, ?_⟩
  · rw [hlength]; decide
  · rw [hinstances]; decide
  · decide
  · rw [(hinsert (by decide) (.ofObject "Gem")).2]; decide

end Store

end SceneLogic

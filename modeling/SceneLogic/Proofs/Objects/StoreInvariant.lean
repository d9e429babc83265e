import SceneLogic.Objects.Store

/-!
# The invariant of the store

Four parts of a store must stay in step: the slots, their generations, the list of vacant
slots and the count of instances.  `Store.WellFormed` is what the last two owe to the
first; it is kept by every update, as long as the slots can be numbered.  Each update is
given as the one slot that it sets, and the views are derived from that.

## Main definitions

* `Store.occupied` — the number of slots that hold an instance.
* `Store.WellFormed` — the vacant slots and the count are those that the slots say.

## Main statements

* `Store.get?_eq_some` — what a handle names, in terms of the slots.
* `Store.WellFormed.insert`, `Store.WellFormed.destroy`, `Store.WellFormed.modify` — the
  updates keep the invariant.
* `Store.WellFormed.get?_insert`, `Store.get?_destroy`, `Store.get?_modify` — what each
  update does to every handle.
* `Store.WellFormed.mem_entries`, `Store.WellFormed.pairwise_entries` — the entries are
  the live handles in the order of their slots.
-/

namespace SceneLogic

/-! ## Assignments in lists -/

/-- Where a list has an element, its modification is an assignment. -/
theorem modify_eq_set_of_getElem? {α : Type u} {list : List α} {index : Nat} {element : α}
    (helement : list[index]? = some element) (change : α → α) :
    list.modify index change = list.set index (change element) := by
  obtain ⟨hlt, rfl⟩ := List.getElem?_eq_some_iff.1 helement
  apply List.ext_getElem?
  intro other
  rw [List.getElem?_modify, List.getElem?_set]
  by_cases hother : index = other
  · subst hother
    simp [hlt]
  · simp [hother]

/-- An assignment exchanges what one element counts for. -/
theorem countP_set_add {α : Type u} {list : List α} {index : Nat} {element : α}
    (helement : list[index]? = some element) (counts : α → Bool) (new : α) :
    (list.set index new).countP counts + (if counts element then 1 else 0) =
      list.countP counts + if counts new then 1 else 0 := by
  obtain ⟨hlt, rfl⟩ := List.getElem?_eq_some_iff.1 helement
  have hle := List.boole_getElem_le_countP (p := counts) hlt
  rw [List.countP_set hlt]
  omega

/-- A slot that there is is set by its number. -/
theorem getElem?_set_number {slots : List Slot} {number : UInt32} {old : Slot}
    (hold : slots[number.toNat]? = some old) (new : Slot) (other : UInt32) :
    (slots.set number.toNat new)[other.toNat]? =
      if other = number then some new else slots[other.toNat]? := by
  have hlt : number.toNat < slots.length := (List.getElem?_eq_some_iff.1 hold).1
  rw [List.getElem?_set]
  by_cases hother : other = number
  · subst hother
    simp [hlt]
  · have hindex : number.toNat ≠ other.toNat := fun h => hother (UInt32.toNat_inj.1 h).symm
    rw [if_neg hother, if_neg hindex]

namespace Store

variable {store : Store}

/-! ## The invariant -/

/-- The number of slots that hold an instance. -/
def occupied (store : Store) : Nat := store.slots.countP (·.content.isSome)

theorem occupied_le_length (store : Store) : store.occupied ≤ store.slots.length :=
  List.countP_le_length

/-- The slots can be numbered; the vacant ones are listed once each; the others are
counted. -/
structure WellFormed (store : Store) : Prop where
  length_le : store.slots.length ≤ UInt32.size
  vacant_nodup : store.vacant.Nodup
  mem_vacant_iff : ∀ number : UInt32, number ∈ store.vacant ↔
    ∃ generation, store.slots[number.toNat]? = some ⟨generation, none⟩
  live_eq : store.live = store.occupied

theorem wellFormed_empty : (∅ : Store).WellFormed where
  length_le := Nat.zero_le _
  vacant_nodup := List.nodup_nil
  mem_vacant_iff number := by simp [EmptyCollection.emptyCollection, empty]
  live_eq := rfl

/-! ## What handles name -/

/-- A handle names the instance in its slot, if the slot has its generation. -/
theorem get?_eq_some {handle : Handle} {item : Instance} :
    store.get? handle = some item ↔
      store.slots[handle.slot.toNat]? = some ⟨handle.generation, some item⟩ := by
  rw [get?, slot?]
  cases hslot : store.slots[handle.slot.toNat]? with
  | none => simp
  | some slot =>
    obtain ⟨generation, content⟩ := slot
    by_cases hgeneration : generation = handle.generation
    · simp [Option.filter, hgeneration]
    · simp [Option.filter, hgeneration]

/-- No two handles to one slot both name an instance. -/
theorem get?_eq_none_of_live {handle other : Handle} {item : Instance}
    (hitem : store.get? handle = some item) (hother : other ≠ handle)
    (hslot : other.slot = handle.slot) : store.get? other = none := by
  rw [Option.eq_none_iff_forall_ne_some]
  intro found hfound
  rw [get?_eq_some] at hitem hfound
  rw [hslot, hitem] at hfound
  have hgeneration : handle.generation = other.generation := by simp_all
  exact hother (Handle.ext hslot hgeneration.symm)

theorem get?_eq_ite_of_dead {handle : Handle} (hdead : store.get? handle = none)
    (other : Handle) :
    store.get? other = if other = handle then none else store.get? other := by
  split
  next heq => rw [heq, hdead]
  next => rfl

/-- Setting the slot of a handle changes what that handle names, and that alone, if the
other handles to the slot name nothing before and after. -/
theorem get?_of_set {next : Store} {handle : Handle} {new : Slot}
    (hslots : ∀ number : UInt32, next.slots[number.toNat]? =
      if number = handle.slot then some new else store.slots[number.toNat]?)
    (hnew : new.content ≠ none → new.generation = handle.generation)
    (hothers : ∀ other ≠ handle, other.slot = handle.slot → store.get? other = none)
    (other : Handle) :
    next.get? other = if other = handle then new.content else store.get? other := by
  rw [get?, slot?, hslots]
  by_cases hslot : other.slot = handle.slot
  · rw [if_pos hslot]
    by_cases hother : other = handle
    · subst hother
      by_cases hcontent : new.content = none <;> simp_all [Option.filter]
    · rw [if_neg hother, hothers other hother hslot]
      by_cases hgeneration : new.generation = other.generation
      · have hcontent : new.content = none := Classical.byContradiction fun hne =>
          hother (Handle.ext hslot (hgeneration.symm.trans (hnew hne)))
        simp [Option.filter, hcontent, hgeneration]
      · simp [Option.filter, hgeneration]
  · have hother : other ≠ handle := by
      rintro rfl
      exact hslot rfl
    rw [if_neg hslot, if_neg hother, get?, slot?]

/-! ## The slot that an update sets -/

/-- Inserting uses the first vacant slot. -/
theorem insert_of_vacant {number : UInt32} {vacant : List UInt32} {generation : UInt32}
    (hvacant : store.vacant = number :: vacant)
    (hslot : store.slots[number.toNat]? = some ⟨generation, none⟩) (item : Instance) :
    store.insert item = (⟨number, generation⟩,
      ⟨store.slots.set number.toNat ⟨generation, some item⟩, vacant, store.live + 1⟩) := by
  simp only [insert, hvacant, hslot, Option.map_some, Option.getD_some,
    modify_eq_set_of_getElem? hslot]

/-- Inserting into a store without vacant slots adds one. -/
theorem insert_of_full (hvacant : store.vacant = [])
    (hroom : store.slots.length < UInt32.size) (item : Instance) :
    store.insert item = (⟨UInt32.ofNat store.slots.length, 0⟩,
      ⟨store.slots ++ [⟨0, some item⟩], [], store.live + 1⟩) := by
  have hnumber : min store.slots.length (UInt32.size - 1) = store.slots.length := by omega
  simp only [insert, hvacant, slotNumber, hnumber]

/-- Destroying leaves the slot vacant, in its next generation. -/
theorem destroy_of_get? {handle : Handle} {item : Instance}
    (hitem : store.get? handle = some item) :
    store.destroy handle = (some item,
      ⟨store.slots.set handle.slot.toNat ⟨handle.generation + 1, none⟩,
        handle.slot :: store.vacant, store.live - 1⟩) := by
  simp only [destroy, hitem]

/-- Changing an instance sets its slot alone. -/
theorem modify_of_get? {handle : Handle} {item : Instance}
    (hitem : store.get? handle = some item) (change : Instance → Instance) :
    store.modify handle change =
      { store with
        slots := store.slots.set handle.slot.toNat ⟨handle.generation, some (change item)⟩ } := by
  have halive : store.isAlive handle = true := isAlive_iff.2 ⟨item, hitem⟩
  rw [modify, if_pos halive, modify_eq_set_of_getElem? (get?_eq_some.1 hitem)]
  rfl

theorem modify_of_dead {handle : Handle} (hdead : store.get? handle = none)
    (change : Instance → Instance) : store.modify handle change = store := by
  have hnot : ¬ store.isAlive handle = true := by simp [isAlive, hdead]
  rw [modify, if_neg hnot]

/-- Slots that can be numbered keep their numbers. -/
theorem toNat_ofNat (hlength : store.slots.length ≤ UInt32.size) {index : Nat} {slot : Slot}
    (hslot : store.slots[index]? = some slot) : (UInt32.ofNat index).toNat = index := by
  have hlt : index < store.slots.length := (List.getElem?_eq_some_iff.1 hslot).1
  exact UInt32.toNat_ofNat_of_lt' (Nat.lt_of_lt_of_le hlt hlength)

namespace WellFormed

/-- The slot of a live handle is not vacant. -/
theorem slot_not_mem_vacant (hstore : store.WellFormed) {handle : Handle} {item : Instance}
    (hitem : store.get? handle = some item) : handle.slot ∉ store.vacant := by
  rw [hstore.mem_vacant_iff]
  rintro ⟨generation, hslot⟩
  rw [get?_eq_some.1 hitem] at hslot
  simp at hslot

/-- Where a handle is live, instances are counted. -/
theorem live_pos (hstore : store.WellFormed) {handle : Handle} {item : Instance}
    (hitem : store.get? handle = some item) : 0 < store.live := by
  rw [hstore.live_eq, occupied, List.countP_pos_iff]
  exact ⟨_, List.mem_of_getElem? (get?_eq_some.1 hitem), rfl⟩

/-- Without vacant slots every slot is occupied. -/
theorem occupied_of_full (hstore : store.WellFormed) (hvacant : store.vacant = []) :
    store.occupied = store.slots.length := by
  rw [occupied, List.countP_eq_length]
  intro slot hslot
  obtain ⟨index, hindex⟩ := List.getElem?_of_mem hslot
  have hnot : UInt32.ofNat index ∉ store.vacant := by simp [hvacant]
  rw [hstore.mem_vacant_iff, toNat_ofNat hstore.length_le hindex] at hnot
  obtain ⟨generation, _ | item⟩ := slot
  · exact absurd ⟨generation, hindex⟩ hnot
  · rfl

/-- The two ways in which an instance gets its slot. -/
theorem insert_cases (hstore : store.WellFormed) (hroom : store.live < UInt32.size)
    (item : Instance) :
    (∃ number vacant generation, store.vacant = number :: vacant ∧
      store.slots[number.toNat]? = some ⟨generation, none⟩ ∧
      store.insert item = (⟨number, generation⟩,
        ⟨store.slots.set number.toNat ⟨generation, some item⟩, vacant, store.live + 1⟩)) ∨
    (store.vacant = [] ∧ store.slots.length < UInt32.size ∧
      store.insert item = (⟨UInt32.ofNat store.slots.length, 0⟩,
        ⟨store.slots ++ [⟨0, some item⟩], [], store.live + 1⟩)) := by
  cases hvacant : store.vacant with
  | nil =>
    have hlength : store.slots.length < UInt32.size := by
      rw [← hstore.occupied_of_full hvacant, ← hstore.live_eq]
      exact hroom
    exact Or.inr ⟨rfl, hlength, insert_of_full hvacant hlength item⟩
  | cons number vacant =>
    obtain ⟨generation, hslot⟩ := (hstore.mem_vacant_iff number).1 (by simp [hvacant])
    exact Or.inl ⟨number, vacant, generation, rfl, hslot, insert_of_vacant hvacant hslot item⟩

/-! ## Updates keep the invariant -/

/-- Setting one slot keeps the invariant, if the slot is listed as vacant and counted
according to what it then holds. -/
theorem of_set (hstore : store.WellFormed) {number : UInt32} {old new : Slot}
    {vacant : List UInt32} {live : Nat} (hslot : store.slots[number.toNat]? = some old)
    (hnodup : vacant.Nodup)
    (hvacant : ∀ other, other ∈ vacant ↔
      if other = number then new.content = none else other ∈ store.vacant)
    (hlive : live + (if old.content.isSome then 1 else 0) =
      store.live + if new.content.isSome then 1 else 0) :
    WellFormed ⟨store.slots.set number.toNat new, vacant, live⟩ := by
  refine ⟨?_, hnodup, fun other => ?_, ?_⟩
  · rw [List.length_set]
    exact hstore.length_le
  · rw [hvacant, getElem?_set_number hslot, hstore.mem_vacant_iff]
    by_cases hother : other = number
    · obtain ⟨generation, content⟩ := new
      simp [hother]
    · simp [hother]
  · have hcount := countP_set_add hslot (·.content.isSome) new
    have hcounted := hstore.live_eq
    simp only [occupied] at hcounted ⊢
    omega

theorem insert (hstore : store.WellFormed) (hroom : store.live < UInt32.size)
    (item : Instance) : (store.insert item).2.WellFormed := by
  obtain ⟨number, vacant, generation, hvacant, hslot, hinsert⟩ | ⟨hvacant, hlength, hinsert⟩ :=
    hstore.insert_cases hroom item
  · have hnodup := hstore.vacant_nodup
    rw [hvacant, List.nodup_cons] at hnodup
    rw [hinsert]
    apply hstore.of_set hslot hnodup.2 _ (by simp)
    intro other
    by_cases hother : other = number
    · simp [hother, hnodup.1]
    · simp [hother, hvacant]
  · rw [hinsert]
    refine ⟨?_, List.nodup_nil, fun other => ?_, ?_⟩
    · rw [List.length_append, List.length_singleton]
      omega
    · have hmem := hstore.mem_vacant_iff other
      simp only [hvacant, List.not_mem_nil, false_iff] at hmem ⊢
      rintro ⟨generation, hslot⟩
      rw [List.getElem?_append] at hslot
      split at hslot
      · exact hmem ⟨generation, hslot⟩
      · simp [List.getElem?_singleton] at hslot
    · simp [occupied, hstore.live_eq, List.countP_append]

theorem destroy (hstore : store.WellFormed) (handle : Handle) :
    (store.destroy handle).2.WellFormed := by
  cases hitem : store.get? handle with
  | none => rwa [destroy_of_dead hitem]
  | some item =>
    have hfresh := hstore.slot_not_mem_vacant hitem
    rw [destroy_of_get? hitem]
    apply hstore.of_set (get?_eq_some.1 hitem) (List.nodup_cons.2 ⟨hfresh, hstore.vacant_nodup⟩)
    · intro other
      by_cases hother : other = handle.slot <;> simp [hother]
    · have hpos := hstore.live_pos hitem
      simp only [Option.isSome_some, Option.isSome_none, Bool.false_eq_true, if_true, if_false]
      omega

theorem modify (hstore : store.WellFormed) (handle : Handle) (change : Instance → Instance) :
    (store.modify handle change).WellFormed := by
  cases hitem : store.get? handle with
  | none => rwa [modify_of_dead hitem]
  | some item =>
    have hfresh := hstore.slot_not_mem_vacant hitem
    rw [modify_of_get? hitem]
    apply hstore.of_set (get?_eq_some.1 hitem) hstore.vacant_nodup _ (by simp)
    intro other
    by_cases hother : other = handle.slot
    · simp [hother, hfresh]
    · simp [hother]

/-! ## What updates do to handles -/

/-- An instance is put into a slot that no handle has an instance in. -/
theorem slots_insert (hstore : store.WellFormed) (hroom : store.live < UInt32.size)
    (item : Instance) :
    let fresh := (store.insert item).1
    (∀ handle : Handle, handle.slot = fresh.slot → store.get? handle = none) ∧
      ∀ other : UInt32, (store.insert item).2.slots[other.toNat]? =
        if other = fresh.slot then some ⟨fresh.generation, some item⟩
        else store.slots[other.toNat]? := by
  obtain ⟨number, vacant, generation, -, hslot, hinsert⟩ | ⟨-, hlength, hinsert⟩ :=
    hstore.insert_cases hroom item
  · rw [hinsert]
    refine ⟨?_, getElem?_set_number hslot _⟩
    rintro handle rfl
    simp [get?, slot?, hslot, Option.filter]
  · have hnumber : (UInt32.ofNat store.slots.length).toNat = store.slots.length :=
      UInt32.toNat_ofNat_of_lt' hlength
    rw [hinsert]
    refine ⟨fun handle hslot => ?_, fun other => ?_⟩
    · simp [get?, slot?, hslot, hnumber]
    · by_cases hother : other = UInt32.ofNat store.slots.length
      · simp [hother, hnumber]
      · have hindex : other.toNat ≠ store.slots.length := by
          rw [← hnumber]
          exact fun h => hother (UInt32.toNat_inj.1 h)
        rw [if_neg hother, List.getElem?_append]
        split
        · rfl
        · rw [List.getElem?_eq_none (by simp; omega), List.getElem?_eq_none (by omega)]

/-- The handle of an inserted instance named nothing before. -/
theorem get?_fresh (hstore : store.WellFormed) (hroom : store.live < UInt32.size)
    (item : Instance) : store.get? (store.insert item).1 = none :=
  (hstore.slots_insert hroom item).1 _ rfl

/-- Inserting changes what the new handle names, and that alone. -/
theorem get?_insert (hstore : store.WellFormed) (hroom : store.live < UInt32.size)
    (item : Instance) (handle : Handle) :
    (store.insert item).2.get? handle =
      if handle = (store.insert item).1 then some item else store.get? handle := by
  obtain ⟨hdead, hslots⟩ := hstore.slots_insert hroom item
  exact get?_of_set hslots (fun _ => rfl) (fun other _ => hdead other) handle

/-- Destroying an instance takes one off the count. -/
theorem live_destroy (hstore : store.WellFormed) {handle : Handle} {item : Instance}
    (hitem : store.get? handle = some item) :
    (store.destroy handle).2.live + 1 = store.live := by
  have hpos := hstore.live_pos hitem
  rw [destroy_of_get? hitem]
  exact Nat.sub_add_cancel hpos

end WellFormed

/-- Destroying changes what one handle names, and that alone. -/
theorem get?_destroy (store : Store) (handle other : Handle) :
    (store.destroy handle).2.get? other =
      if other = handle then none else store.get? other := by
  cases hitem : store.get? handle with
  | none =>
    rw [destroy_of_dead hitem]
    exact get?_eq_ite_of_dead hitem other
  | some item =>
    have hslots : ∀ number : UInt32, (store.destroy handle).2.slots[number.toNat]? =
        if number = handle.slot then some ⟨handle.generation + 1, none⟩
        else store.slots[number.toNat]? := by
      rw [destroy_of_get? hitem]
      exact getElem?_set_number (get?_eq_some.1 hitem) _
    refine get?_of_set hslots ?_ ?_ other
    · exact fun hcontent => absurd rfl hcontent
    · exact fun _ => get?_eq_none_of_live hitem

/-- Changing an instance changes what one handle names, and that alone. -/
theorem get?_modify (store : Store) (handle other : Handle) (change : Instance → Instance) :
    (store.modify handle change).get? other =
      if other = handle then (store.get? handle).map change else store.get? other := by
  cases hitem : store.get? handle with
  | none =>
    rw [modify_of_dead hitem]
    exact get?_eq_ite_of_dead hitem other
  | some item =>
    have hslots : ∀ number : UInt32, (store.modify handle change).slots[number.toNat]? =
        if number = handle.slot then some ⟨handle.generation, some (change item)⟩
        else store.slots[number.toNat]? := by
      rw [modify_of_get? hitem]
      exact getElem?_set_number (get?_eq_some.1 hitem) _
    refine get?_of_set hslots ?_ ?_ other
    · exact fun _ => rfl
    · exact fun _ => get?_eq_none_of_live hitem

/-! ## The entries -/

/-- Every live handle is in the entries, with what it names. -/
theorem mem_entries_of_get? {handle : Handle} {item : Instance}
    (hitem : store.get? handle = some item) : (handle, item) ∈ store.entries := by
  rw [entries, List.mem_filterMap]
  refine ⟨(⟨handle.generation, some item⟩, handle.slot.toNat), ?_, ?_⟩
  · exact List.mk_mem_zipIdx_iff_getElem?.2 (get?_eq_some.1 hitem)
  · simp [ entry?]

/-- Where slots can be numbered, what is in the entries is what handles name. -/
theorem get?_of_mem_entries (hlength : store.slots.length ≤ UInt32.size) {handle : Handle}
    {item : Instance} (hentry : (handle, item) ∈ store.entries) :
    store.get? handle = some item := by
  simp only [entries, List.mem_filterMap, Prod.exists, List.mk_mem_zipIdx_iff_getElem?, entry?,
    Option.map_eq_some_iff] at hentry
  obtain ⟨⟨generation, content⟩, index, hslot, _, rfl, heq⟩ := hentry
  obtain ⟨rfl, rfl⟩ := Prod.mk.inj heq
  rw [get?_eq_some]
  simpa [toNat_ofNat hlength hslot] using hslot

/-- Where slots can be numbered, the entries stand in the order of their slots. -/
theorem pairwise_entries_of_length_le (hlength : store.slots.length ≤ UInt32.size) :
    (store.entries.map (·.1.slot)).Pairwise (· < ·) := by
  have hindexes : store.slots.zipIdx.Pairwise fun first second => first.2 < second.2 := by
    rw [← List.pairwise_map, List.zipIdx_map_snd]
    exact List.pairwise_lt_range'
  rw [List.pairwise_map, entries, List.pairwise_filterMap]
  refine hindexes.imp_of_mem ?_
  rintro ⟨first, index⟩ ⟨second, next⟩ hfirst hsecond hlt entry hentry other hother
  rw [List.mk_mem_zipIdx_iff_getElem?] at hfirst hsecond
  simp only [Option.map_eq_some_iff, entry?] at hentry hother
  obtain ⟨_, _, rfl⟩ := hentry
  obtain ⟨_, _, rfl⟩ := hother
  rw [UInt32.lt_iff_toNat_lt, toNat_ofNat hlength hfirst, toNat_ofNat hlength hsecond]
  exact hlt

namespace WellFormed

/-- The entries are the handles with what they name. -/
theorem mem_entries (hstore : store.WellFormed) {handle : Handle} {item : Instance} :
    (handle, item) ∈ store.entries ↔ store.get? handle = some item :=
  ⟨get?_of_mem_entries hstore.length_le, mem_entries_of_get?⟩

theorem pairwise_entries (hstore : store.WellFormed) :
    (store.entries.map (·.1.slot)).Pairwise (· < ·) :=
  pairwise_entries_of_length_le hstore.length_le

/-- The instances of an object are the live handles that name one, in their order. -/
theorem instancesOf_eq (hstore : store.WellFormed) (object : String) :
    store.instancesOf object =
      (store.entries.map (·.1)).filter fun handle =>
        (store.get? handle).any (·.object = object) := by
  rw [instancesOf, List.filter_map]
  congr 1
  apply List.filter_congr
  rintro ⟨handle, item⟩ hentry
  simp [hstore.mem_entries.1 hentry]

end WellFormed

end Store

end SceneLogic

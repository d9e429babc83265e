import SceneLogic.Proofs.Event.Walk

/-!
# What an edit leaves

Every edit of a list puts an item somewhere among the others or takes it out from among them.
So one relation describes all of them: a list is another list, the rest, with an item at a
position.  Read from the rest it is an insertion, read from the list a removal; a move takes
the item out and puts it back among the same rest, a transfer puts it among another.  An edit
is undone by reading the relation the other way.

The edits are functions of lists and give no lists when they are refused.  Beside them stand
the same edits of two lists in place, step by step, where what is done before an error stays
done: all checks come first, so nothing is.

## Main definitions

* `ItemAt` — a list is a rest with an item at a position.
* `InPlace.insert`, `InPlace.remove`, `InPlace.move`, `InPlace.transfer` — edits in place.

## Main statements

* `insertAt_eq_ok_iff`, `removeAt_eq_ok_iff`, `moveItem_eq_ok_iff`, `transfer_eq_ok_iff` — the
  edits by the relation.
* `InPlace.transfer_of_itemAt` and those before it — the edits in place.
* `edits_lose_nothing` — refused edits change nothing, the others can be undone.
-/

namespace SceneLogic

/-! ## An item among others -/

/-- A list is the rest with the item at the position, and the others in their order. -/
inductive ItemAt {α : Type u} (item : α) : Nat → List α → List α → Prop where
  | head (rest : List α) : ItemAt item 0 rest (item :: rest)
  | tail (first : α) {index : Nat} {rest list : List α} (h : ItemAt item index rest list) :
    ItemAt item (index + 1) (first :: rest) (first :: list)

namespace ItemAt

variable {α : Type u} {item : α} {index : Nat} {rest list : List α}

theorem getElem?_eq (h : ItemAt item index rest list) : list[index]? = some item := by
  induction h with
  | head rest => rfl
  | tail first _ ih => simpa using ih

theorem eraseIdx_eq (h : ItemAt item index rest list) : list.eraseIdx index = rest := by
  induction h with
  | head rest => rfl
  | tail first _ ih => rw [List.eraseIdx_cons_succ, ih]

theorem insertIdx_eq (h : ItemAt item index rest list) : rest.insertIdx index item = list := by
  induction h with
  | head rest => rfl
  | tail first _ ih => rw [List.insertIdx_succ_cons, ih]

theorem length_eq (h : ItemAt item index rest list) : list.length = rest.length + 1 := by
  induction h with
  | head rest => rfl
  | tail first _ ih => rw [List.length_cons, List.length_cons, ih]

theorem le_length (h : ItemAt item index rest list) : index ≤ rest.length := by
  induction h with
  | head rest => exact Nat.zero_le _
  | tail first _ ih => exact Nat.succ_le_succ ih

theorem perm (h : ItemAt item index rest list) : list.Perm (item :: rest) := by
  induction h with
  | head rest => exact .refl _
  | tail first _ ih => exact (ih.cons first).trans (.swap _ _ _)

end ItemAt

section Lists

variable {α : Type u} {item : α} {index origin target : Nat}
  {rest list moved source source' other other' : List α}

theorem itemAt_insertIdx (item : α) (h : index ≤ rest.length) :
    ItemAt item index rest (rest.insertIdx index item) := by
  induction rest generalizing index with
  | nil =>
    obtain rfl := Nat.le_zero.1 h
    exact .head []
  | cons first rest ih =>
    cases index with
    | zero => exact .head _
    | succ index =>
      rw [List.insertIdx_succ_cons]
      exact .tail first (ih (Nat.le_of_succ_le_succ h))

theorem itemAt_eraseIdx (h : index < list.length) :
    ItemAt list[index] index (list.eraseIdx index) list := by
  induction list generalizing index with
  | nil => exact absurd h (Nat.not_lt_zero _)
  | cons first list ih =>
    cases index with
    | zero => exact .head _
    | succ index => exact .tail first (ih (Nat.lt_of_succ_lt_succ h))

/-! ## The edits by the relation -/

theorem insertAt_eq_ok_iff : insertAt rest index item = .ok list ↔ ItemAt item index rest list := by
  unfold insertAt
  constructor
  · intro hok
    split at hok
    next hle =>
      cases hok
      exact itemAt_insertIdx item hle
    next => cases hok
  · intro h
    rw [if_pos h.le_length, h.insertIdx_eq]

theorem removeAt_eq_ok_iff :
    removeAt list index = .ok (item, rest) ↔ ItemAt item index rest list := by
  unfold removeAt
  constructor
  · intro hok
    split at hok
    next hlt =>
      cases hok
      exact itemAt_eraseIdx hlt
    next => cases hok
  · intro h
    obtain ⟨hlt, hitem⟩ := List.getElem?_eq_some_iff.1 h.getElem?_eq
    rw [dif_pos hlt, hitem, h.eraseIdx_eq]

/-- A move takes an item out and puts it back among the same rest. -/
theorem moveItem_eq_ok_iff : moveItem list origin target = .ok moved ↔
    ∃ item rest, ItemAt item origin rest list ∧ ItemAt item target rest moved := by
  unfold moveItem
  constructor
  · intro hok
    split at hok
    next horigin =>
      split at hok
      next htarget =>
        cases hok
        have hrest := itemAt_eraseIdx horigin
        exact ⟨_, _, hrest, itemAt_insertIdx _ (by have := hrest.length_eq; omega)⟩
      next => cases hok
    next => cases hok
  · rintro ⟨item, rest, hlist, hmoved⟩
    obtain ⟨hlt, hitem⟩ := List.getElem?_eq_some_iff.1 hlist.getElem?_eq
    have htarget : target < list.length := by
      rw [hlist.length_eq]
      exact Nat.lt_succ_of_le hmoved.le_length
    rw [dif_pos hlt, if_pos htarget, hitem, hlist.eraseIdx_eq, hmoved.insertIdx_eq]

/-- A transfer takes an item out of one list and puts it into another. -/
theorem transfer_eq_ok_iff : transfer source origin other target = .ok (source', other') ↔
    ∃ item, ItemAt item origin source' source ∧ ItemAt item target other other' := by
  unfold transfer
  constructor
  · intro hok
    split at hok
    next htarget =>
      cases hremove : removeAt source origin with
      | error error =>
        rw [hremove] at hok
        cases hok
      | ok taken =>
        obtain ⟨item, left⟩ := taken
        rw [hremove] at hok
        cases hok
        exact ⟨item, removeAt_eq_ok_iff.1 hremove, itemAt_insertIdx item htarget⟩
    next => cases hok
  · rintro ⟨item, hsource, hother⟩
    rw [if_pos hother.le_length, removeAt_eq_ok_iff.2 hsource, ← hother.insertIdx_eq]
    rfl

end Lists

/-! ## Edits in place -/

/-- An edit of two lists in place: how it ends, and what the lists are then.  What is done to
a list before an error stays done. -/
abbrev InPlace (α : Type u) (β : Type v) : Type (max u v) :=
  List α × List α → Except EditError β × (List α × List α)

namespace InPlace

variable {α : Type u}

/-- Insert into the first list. -/
def insert (index : Nat) (item : α) : InPlace α Unit := fun (list, other) =>
  if list.length < index then (.error (.indexOutOfRange index list.length), (list, other))
  else (.ok (), (list.insertIdx index item, other))

/-- Take an item out of the first list. -/
def remove (index : Nat) : InPlace α α := fun (list, other) =>
  match list[index]? with
  | none => (.error (.indexOutOfRange index list.length), (list, other))
  | some item => (.ok item, (list.eraseIdx index, other))

/-- Take an item out of the first list and put it back elsewhere. -/
def move (origin target : Nat) : InPlace α Unit := fun (list, other) =>
  if list.length ≤ origin then (.error (.indexOutOfRange origin list.length), (list, other))
  else if list.length ≤ target then
    (.error (.indexOutOfRange target list.length), (list, other))
  else
    match remove origin (list, other) with
    | (.error error, lists) => (.error error, lists)
    | (.ok item, (list, other)) => (.ok (), (list.insertIdx target item, other))

/-- Take an item out of the first list and put it into the second. -/
def transfer (origin target : Nat) : InPlace α Unit := fun (list, other) =>
  if other.length < target then (.error (.indexOutOfRange target other.length), (list, other))
  else
    match remove origin (list, other) with
    | (.error error, lists) => (.error error, lists)
    | (.ok item, (list, other)) => (.ok (), (list, other.insertIdx target item))

/-! ### Refused edits -/

/-- An edit is refused over a position: it gives no lists, and in place it leaves both lists
as they were. -/
structure Refused {β : Type v} {γ : Type w} (edit : Except EditError β) (inPlace : InPlace α γ)
    (lists : List α × List α) (index length : Nat) : Prop where
  edit_eq : edit = .error (.indexOutOfRange index length)
  inPlace_eq : inPlace lists = (.error (.indexOutOfRange index length), lists)

variable {item : α} {index origin target : Nat} {rest list other moved other' : List α}

theorem refused_insert (item : α) (h : list.length < index) :
    Refused (insertAt list index item) (insert index item) (list, other) index list.length where
  edit_eq := if_neg (Nat.not_le.2 h)
  inPlace_eq := if_pos h

theorem refused_remove (h : list.length ≤ index) :
    Refused (removeAt list index) (remove index) (list, other) index list.length where
  edit_eq := dif_neg (Nat.not_lt.2 h)
  inPlace_eq := by rw [remove, List.getElem?_eq_none h]

/-- The position that an item is moved from is checked first. -/
theorem refused_move_origin (h : list.length ≤ origin) :
    Refused (moveItem list origin target) (move origin target) (list, other) origin
      list.length where
  edit_eq := dif_neg (Nat.not_lt.2 h)
  inPlace_eq := if_pos h

theorem refused_move_target (horigin : origin < list.length) (h : list.length ≤ target) :
    Refused (moveItem list origin target) (move origin target) (list, other) target
      list.length where
  edit_eq := by rw [moveItem, dif_pos horigin, if_neg (Nat.not_lt.2 h)]
  inPlace_eq := by rw [move, if_neg (Nat.not_le.2 horigin), if_pos h]

/-- The position that an item is transferred to is checked first. -/
theorem refused_transfer_target (h : other.length < target) :
    Refused (SceneLogic.transfer list origin other target) (transfer origin target) (list, other)
      target other.length where
  edit_eq := if_neg (Nat.not_le.2 h)
  inPlace_eq := if_pos h

theorem refused_transfer_origin (htarget : target ≤ other.length) (h : list.length ≤ origin) :
    Refused (SceneLogic.transfer list origin other target) (transfer origin target) (list, other)
      origin list.length :=
  have hrefused : Refused (removeAt list origin) (remove origin) (list, other) origin
      list.length := refused_remove h
  { edit_eq := by
      rw [SceneLogic.transfer, if_pos htarget, hrefused.edit_eq]
      rfl
    inPlace_eq := by rw [transfer, if_neg (Nat.not_lt.2 htarget), hrefused.inPlace_eq] }

/-! ### Edits that are made -/

theorem insert_of_itemAt (h : ItemAt item index rest list) :
    insert index item (rest, other) = (.ok (), (list, other)) := by
  rw [insert, if_neg (Nat.not_lt.2 h.le_length), h.insertIdx_eq]

theorem remove_of_itemAt (h : ItemAt item index rest list) :
    remove index (list, other) = (.ok item, (rest, other)) := by
  rw [remove, h.getElem?_eq, h.eraseIdx_eq]

theorem move_of_itemAt (hlist : ItemAt item origin rest list)
    (hmoved : ItemAt item target rest moved) :
    move origin target (list, other) = (.ok (), (moved, other)) := by
  have horigin := hlist.le_length
  have htarget := hmoved.le_length
  have hlength := hlist.length_eq
  rw [move, if_neg (by omega), if_neg (by omega), remove_of_itemAt hlist]
  dsimp only
  rw [hmoved.insertIdx_eq]

theorem transfer_of_itemAt (hlist : ItemAt item origin rest list)
    (hother : ItemAt item target other other') :
    transfer origin target (list, other) = (.ok (), (rest, other')) := by
  rw [transfer, if_neg (Nat.not_lt.2 hother.le_length), remove_of_itemAt hlist]
  dsimp only
  rw [hother.insertIdx_eq]

end InPlace

/-! ## Instructions of an event -/

namespace Event

variable {event : Event} {kind : InstructionKind} {list longer others : List Instruction}
  {instruction : Instruction} {index : Nat}

/-- An event with instructions of a use takes others in their place. -/
theorem instructions_withInstructions (hlist : event.instructions kind = .ok list)
    (other : List Instruction) :
    (event.withInstructions kind other).instructions kind = .ok other := by
  cases event with
  | comment flags note => cases kind <;> cases hlist
  | branch flags header events => cases header <;> cases kind <;> first | rfl | cases hlist

theorem withInstructions_withInstructions (event : Event) (kind : InstructionKind)
    (first second : List Instruction) :
    (event.withInstructions kind first).withInstructions kind second =
      event.withInstructions kind second := by
  cases event with
  | comment flags note => rfl
  | branch flags header events => cases header <;> cases kind <;> rfl

/-- An event gets its instructions of a use back in place of others. -/
theorem withInstructions_restore (hlist : event.instructions kind = .ok list)
    (other : List Instruction) :
    (event.withInstructions kind other).withInstructions kind list = event := by
  rw [withInstructions_withInstructions]
  cases event with
  | comment flags note => rfl
  | branch flags header events => cases header <;> cases kind <;> cases hlist <;> rfl

theorem insertInstruction_eq (hlist : event.instructions kind = .ok list) (index : Nat)
    (instruction : Instruction) :
    event.insertInstruction kind index instruction =
      (insertAt list index instruction).map (event.withInstructions kind) := by
  simp only [insertInstruction, hlist, bind, Except.bind]
  cases insertAt list index instruction <;> rfl

theorem removeInstruction_eq (hlist : event.instructions kind = .ok list) (index : Nat) :
    event.removeInstruction kind index =
      (removeAt list index).map fun (instruction, left) =>
        (instruction, event.withInstructions kind left) := by
  simp only [removeInstruction, hlist, bind, Except.bind]
  cases removeAt list index <;> rfl

theorem refused_insertInstruction (hlist : event.instructions kind = .ok list)
    (instruction : Instruction) (h : list.length < index) :
    InPlace.Refused (event.insertInstruction kind index instruction)
      (InPlace.insert index instruction) (list, others) index list.length :=
  have hrefused : InPlace.Refused (insertAt list index instruction)
      (InPlace.insert index instruction) (list, others) index list.length :=
    InPlace.refused_insert instruction h
  { edit_eq := by
      rw [insertInstruction_eq hlist, hrefused.edit_eq]
      rfl
    inPlace_eq := hrefused.inPlace_eq }

theorem refused_removeInstruction (hlist : event.instructions kind = .ok list)
    (h : list.length ≤ index) :
    InPlace.Refused (event.removeInstruction kind index) (InPlace.remove index) (list, others)
      index list.length :=
  have hrefused : InPlace.Refused (removeAt list index) (InPlace.remove index) (list, others)
      index list.length := InPlace.refused_remove h
  { edit_eq := by
      rw [removeInstruction_eq hlist, hrefused.edit_eq]
      rfl
    inPlace_eq := hrefused.inPlace_eq }

theorem insertInstruction_of_itemAt (hlist : event.instructions kind = .ok list)
    (h : ItemAt instruction index list longer) :
    event.insertInstruction kind index instruction =
      .ok (event.withInstructions kind longer) := by
  rw [insertInstruction_eq hlist, insertAt_eq_ok_iff.2 h]
  rfl

theorem removeInstruction_of_itemAt (hlonger : event.instructions kind = .ok longer)
    (h : ItemAt instruction index list longer) :
    event.removeInstruction kind index =
      .ok (instruction, event.withInstructions kind list) := by
  rw [removeInstruction_eq hlonger, removeAt_eq_ok_iff.2 h]
  rfl

end Event

/-! ## Nothing is lost -/

/-- A tree has the events of an item and of the rest. -/
theorem ItemAt.count_eq {event : Event} {index : Nat} {rest list : EventTree}
    (h : ItemAt event index rest list) :
    EventTree.count list = EventTree.count [event] + EventTree.count rest := by
  induction h with
  | head rest => exact EventTree.count_cons event rest
  | @tail first index rest list _ ih =>
    rw [EventTree.count_cons first list, EventTree.count_cons first rest, ih, Nat.add_left_comm]

/-- **Edits lose nothing and duplicate nothing.**  An insertion, a removal, a move or a transfer
with a position out of range is refused over this position, and in place it leaves both lists
as they were.  Every other is made, as follows.  What is inserted is at its position, the others
are as before, and removing it gives it back with the list before.  A removal gives the event
of its position, and the rest in order.  A move puts the event of one position at the other,
with the rest in the same order, and the opposite move undoes it.  A transfer takes the event of
its position out of one tree and has it at its position in the other, among the events that
were there; the two trees hold together what they held before, and the opposite transfer undoes
it.  Conditions and actions of an event are inserted and removed in the same way. -/
theorem edits_lose_nothing (source other : EventTree) :
    (∀ index event,
      (source.length < index → InPlace.Refused (insertAt source index event)
        (InPlace.insert index event) (source, other) index source.length) ∧
      (index ≤ source.length → ∃ longer, insertAt source index event = .ok longer ∧
        InPlace.insert index event (source, other) = (.ok (), (longer, other)) ∧
        longer[index]? = some event ∧ longer.eraseIdx index = source ∧
        removeAt longer index = .ok (event, source))) ∧
    (∀ index,
      (source.length ≤ index → InPlace.Refused (removeAt source index)
        (InPlace.remove index) (source, other) index source.length) ∧
      (index < source.length → ∃ event, source[index]? = some event ∧
        removeAt source index = .ok (event, source.eraseIdx index) ∧
        InPlace.remove index (source, other) = (.ok event, (source.eraseIdx index, other)) ∧
        insertAt (source.eraseIdx index) index event = .ok source)) ∧
    (∀ origin target,
      (source.length ≤ origin → InPlace.Refused (moveItem source origin target)
        (InPlace.move origin target) (source, other) origin source.length) ∧
      (origin < source.length → source.length ≤ target →
        InPlace.Refused (moveItem source origin target)
          (InPlace.move origin target) (source, other) target source.length) ∧
      (origin < source.length → target < source.length → ∃ moved,
        moveItem source origin target = .ok moved ∧
        InPlace.move origin target (source, other) = (.ok (), (moved, other)) ∧
        moved[target]? = source[origin]? ∧
        moved.eraseIdx target = source.eraseIdx origin ∧ moved.Perm source ∧
        moveItem moved target origin = .ok source)) ∧
    (∀ origin target,
      (other.length < target → InPlace.Refused (transfer source origin other target)
        (InPlace.transfer origin target) (source, other) target other.length) ∧
      (target ≤ other.length → source.length ≤ origin →
        InPlace.Refused (transfer source origin other target)
          (InPlace.transfer origin target) (source, other) origin source.length) ∧
      (target ≤ other.length → origin < source.length → ∃ other',
        transfer source origin other target = .ok (source.eraseIdx origin, other') ∧
        InPlace.transfer origin target (source, other) =
          (.ok (), (source.eraseIdx origin, other')) ∧
        other'[target]? = source[origin]? ∧ other'.eraseIdx target = other ∧
        (source.eraseIdx origin ++ other').Perm (source ++ other) ∧
        EventTree.count (source.eraseIdx origin) + EventTree.count other' =
          EventTree.count source + EventTree.count other ∧
        transfer other' target (source.eraseIdx origin) origin = .ok (other, source))) ∧
    ∀ (event : Event) kind list, event.instructions kind = .ok list → ∀ index others,
      (∀ instruction,
        (list.length < index → InPlace.Refused (event.insertInstruction kind index instruction)
          (InPlace.insert index instruction) (list, others) index list.length) ∧
        (index ≤ list.length → ∃ changed longer,
          event.insertInstruction kind index instruction = .ok changed ∧
          changed.instructions kind = .ok longer ∧ longer[index]? = some instruction ∧
          longer.eraseIdx index = list ∧
          changed.removeInstruction kind index = .ok (instruction, event))) ∧
      (list.length ≤ index → InPlace.Refused (event.removeInstruction kind index)
        (InPlace.remove index) (list, others) index list.length) ∧
      (index < list.length → ∃ instruction changed, list[index]? = some instruction ∧
        event.removeInstruction kind index = .ok (instruction, changed) ∧
        changed.instructions kind = .ok (list.eraseIdx index) ∧
        changed.insertInstruction kind index instruction = .ok event) := by
  refine ⟨?insertion, ?removal, ?move, ?transfer, ?instructions⟩
  case insertion =>
    intro index event
    refine ⟨InPlace.refused_insert event, fun hindex => ?_⟩
    have hlonger := itemAt_insertIdx event hindex
    exact ⟨_, insertAt_eq_ok_iff.2 hlonger, InPlace.insert_of_itemAt hlonger,
      hlonger.getElem?_eq, hlonger.eraseIdx_eq, removeAt_eq_ok_iff.2 hlonger⟩
  case removal =>
    intro index
    refine ⟨InPlace.refused_remove, fun hindex => ?_⟩
    have hrest := itemAt_eraseIdx hindex
    exact ⟨_, hrest.getElem?_eq, removeAt_eq_ok_iff.2 hrest, InPlace.remove_of_itemAt hrest,
      insertAt_eq_ok_iff.2 hrest⟩
  case move =>
    intro origin target
    refine ⟨InPlace.refused_move_origin, InPlace.refused_move_target, fun horigin htarget => ?_⟩
    have hrest := itemAt_eraseIdx horigin
    have hlength := hrest.length_eq
    have hmoved := itemAt_insertIdx source[origin] (Nat.le_of_lt_succ (hlength ▸ htarget))
    exact ⟨_, moveItem_eq_ok_iff.2 ⟨_, _, hrest, hmoved⟩, InPlace.move_of_itemAt hrest hmoved,
      hmoved.getElem?_eq.trans hrest.getElem?_eq.symm, hmoved.eraseIdx_eq,
      hmoved.perm.trans hrest.perm.symm, moveItem_eq_ok_iff.2 ⟨_, _, hmoved, hrest⟩⟩
  case transfer =>
    intro origin target
    refine ⟨InPlace.refused_transfer_target, InPlace.refused_transfer_origin,
      fun htarget horigin => ?_⟩
    have hrest := itemAt_eraseIdx horigin
    have hother := itemAt_insertIdx source[origin] htarget
    refine ⟨_, transfer_eq_ok_iff.2 ⟨_, hrest, hother⟩, InPlace.transfer_of_itemAt hrest hother,
      hother.getElem?_eq.trans hrest.getElem?_eq.symm, hother.eraseIdx_eq, ?_, ?_,
      transfer_eq_ok_iff.2 ⟨_, hother, hrest⟩⟩
    · have hmiddle := (hother.perm.append_left (source.eraseIdx origin)).trans List.perm_middle
      exact hmiddle.trans (hrest.perm.symm.append_right other)
    · rw [hother.count_eq, hrest.count_eq]
      omega
  case instructions =>
    intro event kind list hlist index others
    have hchanged := Event.instructions_withInstructions hlist
    have hrestore := Event.withInstructions_restore hlist
    refine ⟨fun instruction => ⟨Event.refused_insertInstruction hlist instruction,
      fun hindex => ?_⟩, Event.refused_removeInstruction hlist, fun hindex => ?_⟩
    · have hlonger := itemAt_insertIdx instruction hindex
      refine ⟨_, _, Event.insertInstruction_of_itemAt hlist hlonger, hchanged _,
        hlonger.getElem?_eq, hlonger.eraseIdx_eq, ?_⟩
      rw [Event.removeInstruction_of_itemAt (hchanged _) hlonger, hrestore]
    · have hrest := itemAt_eraseIdx hindex
      refine ⟨_, _, hrest.getElem?_eq, Event.removeInstruction_of_itemAt hlist hrest,
        hchanged _, ?_⟩
      rw [Event.insertInstruction_of_itemAt (hchanged _) hrest, hrestore]

/-- A group of doors with a comment in it. -/
def doorGroup : Event :=
  .branch ⟨false, false⟩ (.group ⟨"Doors", "", 0, [], .group⟩)
    [.comment ⟨false, false⟩ ⟨"Open", .comment, .commentText⟩]

/-- A comment without anything. -/
def blankNote : Event := .comment ⟨false, false⟩ ⟨"", .comment, .commentText⟩

/-- An event that runs actions on doors. -/
def doorEvent (actions : List Instruction) : Event :=
  .branch ⟨false, false⟩ (.standard ⟨[], actions⟩) []

/-- The group moves behind the other events, and it goes into a tree of one comment; a position
behind the end of that tree is refused.  An event with two actions takes a third in between. -/
theorem edits_lose_nothing_of_doorGroup :
    let create : Instruction := ⟨"objects/Create", ["Door"], false⟩
    let change : Instruction := ⟨"objects/SetVar", ["Door", "open", "1"], false⟩
    let delete : Instruction := ⟨"objects/Delete", ["Door"], false⟩
    let event := doorEvent [create, delete]
    let source : EventTree := [doorGroup, blankNote, event]
    moveItem source 0 2 = .ok [blankNote, event, doorGroup] ∧
      moveItem [blankNote, event, doorGroup] 2 0 = .ok source ∧
      transfer source 0 [blankNote] 1 = .ok ([blankNote, event], [blankNote, doorGroup]) ∧
      EventTree.count [blankNote, event] + EventTree.count [blankNote, doorGroup] =
        EventTree.count source + EventTree.count [blankNote] ∧
      transfer [blankNote, doorGroup] 1 [blankNote, event] 0 = .ok ([blankNote], source) ∧
      InPlace.transfer 0 2 (source, [blankNote]) =
        (.error (.indexOutOfRange 2 1), (source, [blankNote])) ∧
      event.insertInstruction .action 1 change = .ok (doorEvent [create, change, delete]) ∧
      (doorEvent [create, change, delete]).removeInstruction .action 1 = .ok (change, event) := by
  intro create change delete event source
  obtain ⟨-, -, hmove, htransfer, hinstructions⟩ := edits_lose_nothing source [blankNote]
  obtain ⟨moved, hmoved, -, -, -, -, hback⟩ := (hmove 0 2).2.2 (by decide) (by decide)
  obtain rfl : [blankNote, event, doorGroup] = moved := Except.ok.inj hmoved
  obtain ⟨other', hother, -, -, -, -, hcount, hreturn⟩ :=
    (htransfer 0 1).2.2 (by decide) (by decide)
  obtain rfl : [blankNote, doorGroup] = other' := congrArg Prod.snd (Except.ok.inj hother)
  have hrefused := (htransfer 0 2).1 (by decide)
  obtain ⟨changed, -, hchanged, -, -, -, hremove⟩ :=
    ((hinstructions event .action _ rfl 1 []).1 change).2 (by decide)
  obtain rfl : doorEvent [create, change, delete] = changed := Except.ok.inj hchanged
  exact ⟨hmoved, hback, hother, hcount, hreturn, hrefused.inPlace_eq, hchanged, hremove⟩

end SceneLogic

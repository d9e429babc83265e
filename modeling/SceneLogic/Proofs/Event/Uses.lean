import SceneLogic.Proofs.Event.Walk

/-!
# The instructions of a tree

A tree uses the instructions of all events that a walk over it visits: those of
disabled events and of functions too.  What a tree uses is described here by its
parts, so that a recursion over events can carry it along, and it is shown that
looking a function up leads to nothing that the tree does not use already.

What an event carries out where it stands is less: the functions in it are left out, as
they run only when they are called.

## Main definitions

* `EventTree.uses` — the instructions of a tree with their uses.
* `EventTree.usesInPlace` — those that no function holds.

## Main statements

* `EventTree.uses_cons`, `EventTree.uses_branch` — the uses of a tree by its parts.
* `EventTree.uses_subset_of_findFunction?` — a function that is found uses only what
  the tree uses.
-/

namespace SceneLogic

/-- The instructions of a body, conditions first. -/
def Body.uses (body : Body) : List (InstructionKind × Instruction) :=
  body.conditions.map (.condition, ·) ++ body.actions.map (.action, ·)

/-- The instructions of an event without those of its sub-events. -/
def Event.uses (event : Event) : List (InstructionKind × Instruction) :=
  (event.body?.map Body.uses).getD []

/-- The instructions of a tree with their uses, in the order of the walk. -/
def EventTree.uses (tree : EventTree) : List (InstructionKind × Instruction) :=
  tree.visited.flatMap (·.uses)

namespace EventTree

theorem uses_cons (event : Event) (events : List Event) :
    uses (event :: events) = uses [event] ++ uses events := by
  rw [uses, visited_cons, List.flatMap_append]
  rfl

theorem uses_branch (flags : Flags) (header : Header) (events : List Event) :
    uses [.branch flags header events] =
      (Event.branch flags header events).uses ++ uses events := by
  rw [uses, visited_branch, List.flatMap_cons]
  rfl

theorem uses_subset_cons_left (event : Event) (events : List Event) :
    uses [event] ⊆ uses (event :: events) := by
  rw [uses_cons event events]
  exact List.subset_append_left _ _

theorem uses_subset_cons_right (event : Event) (events : List Event) :
    uses events ⊆ uses (event :: events) := by
  rw [uses_cons event events]
  exact List.subset_append_right _ _

theorem uses_subset_branch (flags : Flags) (header : Header) (events : List Event) :
    uses events ⊆ uses [.branch flags header events] := by
  rw [uses_branch]
  exact List.subset_append_right _ _

end EventTree

/-- The instructions of a function, those of its sub-events included. -/
def Function.uses (function : Function) : List (InstructionKind × Instruction) :=
  function.body.uses ++ EventTree.uses function.events

/-! ## What is used in place -/

mutual

/-- The instructions that an event carries out where it stands: its own and those of the
events below it.  A function carries out nothing there. -/
def Event.usesInPlace : Event → List (InstructionKind × Instruction)
  | .branch _ (.standard body) events => body.uses ++ EventTree.usesInPlace events
  | .branch _ (.group _) events => EventTree.usesInPlace events
  | .branch _ (.function _ _) _ => []
  | .comment _ _ => []

/-- The instructions that the events of a tree carry out where they stand. -/
def EventTree.usesInPlace : List Event → List (InstructionKind × Instruction)
  | [] => []
  | event :: events => event.usesInPlace ++ EventTree.usesInPlace events

end

/-- The instructions that a call of a function carries out, those of the functions below it
left out. -/
def Function.usesInPlace (function : Function) : List (InstructionKind × Instruction) :=
  function.body.uses ++ EventTree.usesInPlace function.events

mutual

theorem Event.usesInPlace_subset : ∀ event : Event, event.usesInPlace ⊆ EventTree.uses [event]
  | .comment _ _ => List.nil_subset _
  | .branch flags header events => by
    rw [EventTree.uses_branch]
    cases header with
    | standard body =>
      exact List.append_subset.2 ⟨List.subset_append_left _ _,
        List.subset_append_of_subset_right _ (EventTree.usesInPlace_subset events)⟩
    | group info => exact EventTree.usesInPlace_subset events
    | function signature body => exact List.nil_subset _

/-- A tree uses what its events carry out where they stand. -/
theorem EventTree.usesInPlace_subset : ∀ events : List Event,
    EventTree.usesInPlace events ⊆ EventTree.uses events
  | [] => List.nil_subset _
  | event :: events => by
    rw [EventTree.uses_cons]
    exact List.append_subset.2
      ⟨List.subset_append_of_subset_left _ (Event.usesInPlace_subset event),
        List.subset_append_of_subset_right _ (EventTree.usesInPlace_subset events)⟩

end

theorem Function.usesInPlace_subset (function : Function) :
    function.usesInPlace ⊆ function.uses :=
  List.append_subset.2 ⟨List.subset_append_left _ _,
    List.subset_append_of_subset_right _ (EventTree.usesInPlace_subset function.events)⟩

/-! ## What a function uses -/

mutual

theorem Event.uses_subset_of_findFunction? {name : String} {function : Function} :
    ∀ {event : Event}, event.findFunction? name = some function →
      function.uses ⊆ EventTree.uses [event]
  | .branch flags header events, h => by
    -- Only the header of a function can be the match itself; all others descend.
    cases header with
    | standard body | group info =>
      exact fun use mem => EventTree.uses_subset_branch _ _ _
        (EventTree.uses_subset_of_findFunction? h mem)
    | function signature body =>
      simp only [Event.findFunction?] at h
      split at h
      · cases h
        rw [EventTree.uses_branch]
        exact List.Subset.refl _
      · exact fun use mem => EventTree.uses_subset_branch _ _ _
          (EventTree.uses_subset_of_findFunction? h mem)
  | .comment _ _, h => by simp [Event.findFunction?] at h

/-- A function that is found in a tree uses only what the tree uses. -/
theorem EventTree.uses_subset_of_findFunction? {name : String} {function : Function} :
    ∀ {events : List Event}, EventTree.findFunction? name events = some function →
      function.uses ⊆ EventTree.uses events
  | [], h => by simp [EventTree.findFunction?] at h
  | event :: events, h => by
    simp only [EventTree.findFunction?] at h
    split at h
    next found hfound =>
      cases h
      exact fun use mem => EventTree.uses_subset_cons_left event events
        (Event.uses_subset_of_findFunction? hfound mem)
    next =>
      exact fun use mem => EventTree.uses_subset_cons_right event events
        (EventTree.uses_subset_of_findFunction? h mem)

end

end SceneLogic

import SceneLogic.Proofs.Event.Lookup

/-!
# Trees that run alike

A run passes over much of a tree: disabled events with everything below them, and
functions and comments where they stand.  A call finds a function wherever it is, and then
only its argument, its body and its sub-events matter, and none of them if it is disabled.
Here two trees are compared by the rest alone.

## Main definitions

* `Event.IsIdle` — an event that does nothing where it stands.
* `EventTree.RunsLike` — events that differ in what a run passes over.
* `Function.RunsLike` — functions whose calls do the same.
* `EventTree.Alike` — trees whose events and whose functions do so.
-/

namespace SceneLogic

/-- An event that does nothing where it stands. -/
def Event.IsIdle (event : Event) : Prop :=
  event.flags.disabled = true ∨ event.kind = .function ∨ event.kind = .comment

mutual

/-- Two events that do the same where they stand, in the same tree of functions. -/
inductive Event.RunsLike : Event → Event → Prop where
  | idle {event other : Event} (hevent : event.IsIdle) (hother : other.IsIdle) :
    Event.RunsLike event other
  | standard {flags other : Flags} {events others : List Event}
    (disabled : flags.disabled = other.disabled) (body : Body)
    (below : EventTree.RunsLike events others) :
    Event.RunsLike (.branch flags (.standard body) events)
      (.branch other (.standard body) others)
  | group {flags other : Flags} {events others : List Event}
    (disabled : flags.disabled = other.disabled) (info otherInfo : GroupInfo)
    (below : EventTree.RunsLike events others) :
    Event.RunsLike (.branch flags (.group info) events)
      (.branch other (.group otherInfo) others)

/-- Events that do the same, one after the other, in the same tree of functions. -/
inductive EventTree.RunsLike : List Event → List Event → Prop where
  | nil : EventTree.RunsLike [] []
  | cons {event other : Event} {events others : List Event} (first : Event.RunsLike event other)
    (rest : EventTree.RunsLike events others) :
    EventTree.RunsLike (event :: events) (other :: others)

end

/-- Two functions whose calls do the same, in the same tree of functions. -/
structure Function.RunsLike (function other : Function) : Prop where
  disabled : function.flags.disabled = other.flags.disabled
  argument : function.flags.disabled = false →
    function.signature.argument = other.signature.argument
  body : function.flags.disabled = false → function.body = other.body
  events : function.flags.disabled = false → EventTree.RunsLike function.events other.events

/-- Two trees that run alike: their events do, and a call finds functions that do. -/
structure EventTree.Alike (tree other : EventTree) : Prop where
  events : EventTree.RunsLike tree other
  functions : ∀ name, Option.Rel Function.RunsLike (EventTree.findFunction? name tree)
    (EventTree.findFunction? name other)

/-! ## Every tree runs like itself -/

mutual

theorem Event.RunsLike.refl : ∀ event : Event, event.RunsLike event
  | .comment _ _ => .idle (.inr (.inr rfl)) (.inr (.inr rfl))
  | .branch _ (.function _ _) _ => .idle (.inr (.inl rfl)) (.inr (.inl rfl))
  | .branch _ (.standard body) events => .standard rfl body (EventTree.RunsLike.refl events)
  | .branch _ (.group info) events => .group rfl info info (EventTree.RunsLike.refl events)

theorem EventTree.RunsLike.refl : ∀ events : List Event, EventTree.RunsLike events events
  | [] => .nil
  | event :: events => .cons (Event.RunsLike.refl event) (EventTree.RunsLike.refl events)

end

theorem Function.RunsLike.refl (function : Function) : function.RunsLike function where
  disabled := rfl
  argument _ := rfl
  body _ := rfl
  events _ := EventTree.RunsLike.refl function.events

/-- Calls of disabled functions do nothing. -/
theorem Function.RunsLike.of_disabled {function other : Function}
    (hfunction : function.flags.disabled = true) (hother : other.flags.disabled = true) :
    function.RunsLike other := by
  have habsurd : ∀ {p : Prop}, function.flags.disabled = false → p :=
    fun h => Bool.noConfusion (h.symm.trans hfunction)
  exact ⟨hfunction.trans hother.symm, habsurd, habsurd, habsurd⟩

/-- Where the same functions are found, calls find functions that run alike. -/
theorem EventTree.rel_findFunction? {tree other : EventTree}
    (h : ∀ name, EventTree.findFunction? name tree = EventTree.findFunction? name other)
    (name : String) : Option.Rel Function.RunsLike (EventTree.findFunction? name tree)
      (EventTree.findFunction? name other) := by
  rw [h name]
  cases EventTree.findFunction? name other with
  | none => exact .none
  | some function => exact .some (.refl function)

theorem EventTree.Alike.refl (tree : EventTree) : EventTree.Alike tree tree where
  events := .refl tree
  functions := rel_findFunction? fun _ => rfl

end SceneLogic

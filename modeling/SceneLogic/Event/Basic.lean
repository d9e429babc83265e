import SceneLogic.Event.Instruction

/-!
# Events

An event is a node of the tree that drives a scene.  There are four kinds.  A
*standard* event runs its actions and sub-events when its conditions pass; a
*group* holds events together and does nothing of its own; a *function* runs when
an action calls it by name; a *comment* never runs.

Comments are leaves; the other three kinds hold sub-events.  Standard events and
functions hold conditions and actions.  Asking an event for a part that its kind
does not have is an error of the caller, which names the kind and the part.

## Main definitions

* `Event` — an event with everything below it; `EventTree` — events in order.
* `Event.subEvents`, `Event.conditions`, `Event.actions` — the parts of an event.
* `EditError` — why an event cannot be changed or asked as wished.
-/

namespace SceneLogic

/-- A color of three components. -/
structure Color where
  red : UInt8
  green : UInt8
  blue : UInt8
deriving DecidableEq, Repr

/-- The background of a group unless it says otherwise. -/
def Color.group : Color := ⟨74, 176, 228⟩

/-- The background of a comment unless it says otherwise. -/
def Color.comment : Color := ⟨255, 230, 109⟩

/-- The color of a comment's text unless it says otherwise. -/
def Color.commentText : Color := ⟨0, 0, 0⟩

/-- What every event can be marked as. -/
structure Flags where
  disabled : Bool
  folded : Bool
deriving DecidableEq, Repr

/-- What an event that runs consists of, its sub-events apart. -/
structure Body where
  conditions : List Instruction
  actions : List Instruction
deriving DecidableEq, Repr

/-- What is known of a group: its name, where it was taken from, and how it was
made from a template.  Time zero means that the group was not made from one. -/
structure GroupInfo where
  name : String
  source : String
  creationTime : UInt32
  parameters : List String
  color : Color
deriving DecidableEq, Repr

/-- The name under which a function is called, and the name under which its body
finds the objects that are passed to it. -/
structure Signature where
  name : String
  argument : String
deriving DecidableEq, Repr

/-- The content of a comment. -/
structure Note where
  text : String
  color : Color
  textColor : Color
deriving DecidableEq, Repr

/-- What an event with sub-events is, by kind. -/
inductive Header where
  | standard (body : Body)
  | group (info : GroupInfo)
  | function (signature : Signature) (body : Body)
deriving DecidableEq, Repr

/-- An event with everything below it. -/
inductive Event where
  | branch (flags : Flags) (header : Header) (events : List Event)
  | comment (flags : Flags) (note : Note)
deriving Repr

/-- Events in the order in which they run. -/
abbrev EventTree := List Event

/-- A function event by its parts. -/
structure Function where
  flags : Flags
  signature : Signature
  body : Body
  events : EventTree
deriving Repr

/-- The kinds of event. -/
inductive EventKind where
  | standard
  | group
  | function
  | comment
deriving DecidableEq, Repr

/-- The name of a kind, which is also its tag in files. -/
def EventKind.name : EventKind → String
  | .standard => "Standard"
  | .group => "Group"
  | .function => "Function"
  | .comment => "Comment"

/-- The kind of an event with this header. -/
def Header.kind : Header → EventKind
  | .standard _ => .standard
  | .group _ => .group
  | .function _ _ => .function

/-- The parts that some kinds of event do not have. -/
inductive EventPart where
  | conditions
  | actions
  | subEvents
deriving DecidableEq, Repr

/-- The name of a part. -/
def EventPart.name : EventPart → String
  | .conditions => "conditions"
  | .actions => "actions"
  | .subEvents => "sub-events"

/-- Why an event or a list cannot be changed or asked as wished. -/
inductive EditError where
  | indexOutOfRange (index length : Nat)
  | missingPart (kind : EventKind) (part : EventPart)
  | noEvent
deriving DecidableEq, Repr

/-- The wording of an error. -/
def EditError.message : EditError → String
  | .indexOutOfRange index length => s!"Index {index} out of range (length {length})"
  | .missingPart kind part =>
    "contract violation: " ++ kind.name ++ " event has no " ++ part.name
  | .noEvent => "there is no event at this place"

namespace Event

mutual

/-- Equality of events is decided node by node. -/
protected def decEq : (a b : Event) → Decidable (a = b)
  | .branch flags header events, .branch flags2 header2 events2 =>
    match decEq flags flags2, decEq header header2, Event.decEqAll events events2 with
    | isTrue hf, isTrue hh, isTrue he => isTrue (hf ▸ hh ▸ he ▸ rfl)
    | isFalse h, _, _ => isFalse fun eq => h (by injection eq)
    | _, isFalse h, _ => isFalse fun eq => h (by injection eq)
    | _, _, isFalse h => isFalse fun eq => h (by injection eq)
  | .comment flags note, .comment flags2 note2 =>
    match decEq flags flags2, decEq note note2 with
    | isTrue hf, isTrue hn => isTrue (hf ▸ hn ▸ rfl)
    | isFalse h, _ => isFalse fun eq => h (by injection eq)
    | _, isFalse h => isFalse fun eq => h (by injection eq)
  | .branch .., .comment .. | .comment .., .branch .. => isFalse nofun

/-- Equality of trees. -/
protected def decEqAll : (a b : List Event) → Decidable (a = b)
  | [], [] => isTrue rfl
  | [], _ :: _ | _ :: _, [] => isFalse nofun
  | a :: as, b :: bs =>
    match Event.decEq a b, Event.decEqAll as bs with
    | isTrue h, isTrue t => isTrue (h ▸ t ▸ rfl)
    | isFalse h, _ => isFalse fun eq => h (by injection eq)
    | _, isFalse t => isFalse fun eq => t (by injection eq)

end

instance : DecidableEq Event := Event.decEq

/-- The kind of an event. -/
def kind : Event → EventKind
  | .branch _ header _ => header.kind
  | .comment _ _ => .comment

/-- The marks of an event. -/
def flags : Event → Flags
  | .branch flags _ _ | .comment flags _ => flags

/-- Change the marks of an event. -/
def withFlags (event : Event) (flags : Flags) : Event :=
  match event with
  | .branch _ header events => .branch flags header events
  | .comment _ note => .comment flags note

/-- Enable or disable an event. -/
def setDisabled (event : Event) (disabled : Bool) : Event :=
  event.withFlags { event.flags with disabled := disabled }

/-- Fold or unfold an event. -/
def setFolded (event : Event) (folded : Bool) : Event :=
  event.withFlags { event.flags with folded := folded }

/-- The function that an event is, if it is one. -/
def function? : Event → Option Function
  | .branch flags (.function signature body) events => some ⟨flags, signature, body, events⟩
  | _ => none

/-- What is known of an event as a group, if it is one. -/
def group? : Event → Option GroupInfo
  | .branch _ (.group info) _ => some info
  | _ => none

/-- Change what is known of a group; no other event changes. -/
def modifyGroup (event : Event) (change : GroupInfo → GroupInfo) : Event :=
  match event with
  | .branch flags (.group info) events => .branch flags (.group (change info)) events
  | event => event

/-- The conditions and actions of an event, if its kind has them. -/
def body? : Event → Option Body
  | .branch _ (.standard body) _ | .branch _ (.function _ body) _ => some body
  | _ => none

/-- Change the conditions and actions of an event; no event of another kind changes. -/
def withBody (event : Event) (body : Body) : Event :=
  match event with
  | .branch flags (.standard _) events => .branch flags (.standard body) events
  | .branch flags (.function signature _) events => .branch flags (.function signature body) events
  | event => event

/-- Whether an event has conditions and actions. -/
def isExecutable (event : Event) : Bool := event.body?.isSome

/-- The sub-events of an event; a comment has none. -/
def children : Event → EventTree
  | .branch _ _ events => events
  | .comment _ _ => []

/-- Replace the sub-events of an event; a comment does not change. -/
def withChildren (event : Event) (events : EventTree) : Event :=
  match event with
  | .branch flags header _ => .branch flags header events
  | event => event

/-- Whether an event can hold sub-events. -/
def canHaveSubEvents : Event → Bool
  | .branch _ _ _ => true
  | .comment _ _ => false

/-- Whether an event holds sub-events. -/
def hasSubEvents (event : Event) : Bool := !event.children.isEmpty

/-- The sub-events of an event that can have them. -/
def subEvents (event : Event) : Except EditError EventTree :=
  if event.canHaveSubEvents then .ok event.children
  else .error (.missingPart event.kind .subEvents)

/-- The conditions of an event that can have them. -/
def conditions (event : Event) : Except EditError (List Instruction) :=
  match event.body? with
  | some body => .ok body.conditions
  | none => .error (.missingPart event.kind .conditions)

/-- The actions of an event that can have them. -/
def actions (event : Event) : Except EditError (List Instruction) :=
  match event.body? with
  | some body => .ok body.actions
  | none => .error (.missingPart event.kind .actions)

/-- The instructions of an event by their use. -/
def instructionLists (event : Event) : List (InstructionKind × List Instruction) :=
  match event.body? with
  | some body => [(.condition, body.conditions), (.action, body.actions)]
  | none => []

end Event

namespace GroupInfo

/-- The second since the epoch at which a group was made, if that is known. -/
def createdAt? (info : GroupInfo) : Option Nat :=
  if info.creationTime = 0 then none else some info.creationTime.toNat

/-- Record the second at which a group was made.  A second out of range counts as
unknown. -/
def setCreatedAt (info : GroupInfo) (second : Int) : GroupInfo :=
  { info with creationTime :=
      if 0 ≤ second ∧ second < UInt32.size then UInt32.ofNat second.toNat else 0 }

end GroupInfo

end SceneLogic

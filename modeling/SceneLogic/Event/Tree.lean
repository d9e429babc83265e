import SceneLogic.Event.Editing

/-!
# Trees of events

The walk over a tree visits each event before its sub-events and siblings in
order; it descends into every event, whether the event is enabled or not.  A path
of positions leads from a tree to any event in it.

Functions are looked up by name along the walk, and the first match counts.

## Main definitions

* `EventTree.walk` — the events of a tree with their depths.
* `EventTree.findFunction?` — the first function of a name.
* `EventTree.functions` — all functions in the order of the walk.
* `EventTree.treeAt`, `EventTree.eventAt` and the setters beside them — the places
  that a path leads to.
-/

namespace SceneLogic

mutual

/-- An event and everything below it, each with its depth. -/
def Event.walkFrom (depth : Nat) : Event → List (Nat × Event)
  | .branch flags header events =>
    (depth, .branch flags header events) :: EventTree.walkFrom (depth + 1) events
  | .comment flags note => [(depth, .comment flags note)]

/-- The events of a tree and everything below them, each with its depth. -/
def EventTree.walkFrom (depth : Nat) : List Event → List (Nat × Event)
  | [] => []
  | event :: events => event.walkFrom depth ++ EventTree.walkFrom depth events

end

mutual

/-- The function of a name at or below an event. -/
def Event.findFunction? (name : String) : Event → Option Function
  | .branch flags (.function signature body) events =>
    if signature.name = name then some ⟨flags, signature, body, events⟩
    else EventTree.findFunction? name events
  | .branch _ _ events => EventTree.findFunction? name events
  | .comment _ _ => none

/-- The first function of a name in a tree. -/
def EventTree.findFunction? (name : String) : List Event → Option Function
  | [] => none
  | event :: events =>
    match event.findFunction? name with
    | some function => some function
    | none => EventTree.findFunction? name events

end

namespace EventTree

/-- The events of a tree with their depths; those of the tree itself have depth zero. -/
def walk (tree : EventTree) : List (Nat × Event) := walkFrom 0 tree

/-- The number of events in a tree, sub-events included. -/
def count (tree : EventTree) : Nat := tree.walk.length

/-- The functions of a tree in the order of the walk. -/
def functions (tree : EventTree) : List Function := tree.walk.filterMap (·.2.function?)

/-- The tree that a path leads to: at each position of the path, the sub-events of
the event there. -/
def treeAt (tree : EventTree) : List Nat → Except EditError EventTree
  | [] => .ok tree
  | index :: path =>
    match tree[index]? with
    | none => .error .noEvent
    | some event => do treeAt (← event.subEvents) path

/-- Replace the tree that a path leads to; nothing changes if it leads nowhere. -/
def setTreeAt (tree : EventTree) (path : List Nat) (replacement : EventTree) : EventTree :=
  match path with
  | [] => replacement
  | index :: path =>
    tree.modify index fun event => event.withChildren (setTreeAt event.children path replacement)

/-- The event that a path leads to: the event at the last position, in the tree
that the positions before it lead to. -/
def eventAt (tree : EventTree) : List Nat → Except EditError Event
  | [] => .error .noEvent
  | [index] =>
    match tree[index]? with
    | none => .error .noEvent
    | some event => .ok event
  | index :: path =>
    match tree[index]? with
    | none => .error .noEvent
    | some event => do eventAt (← event.subEvents) path

/-- Replace the event that a path leads to; nothing changes if it leads nowhere. -/
def setEventAt (tree : EventTree) (path : List Nat) (replacement : Event) : EventTree :=
  match path with
  | [] => tree
  | [index] => tree.modify index fun _ => replacement
  | index :: path =>
    tree.modify index fun event => event.withChildren (setEventAt event.children path replacement)

/-- Change the tree that a path leads to.  Nothing changes if that fails. -/
def updateTreeAt (tree : EventTree) (path : List Nat)
    (change : EventTree → Except EditError (α × EventTree)) : Except EditError (α × EventTree) := do
  let (result, replacement) ← change (← tree.treeAt path)
  return (result, tree.setTreeAt path replacement)

/-- Change the event that a path leads to.  Nothing changes if that fails. -/
def updateEventAt (tree : EventTree) (path : List Nat)
    (change : Event → Except EditError (α × Event)) : Except EditError (α × EventTree) := do
  let (result, replacement) ← change (← tree.eventAt path)
  return (result, tree.setEventAt path replacement)

/-- Move an event out of the tree that a path leads to into a place in another tree.
Nothing changes if that fails; the path into the first tree is followed first. -/
def transferAt (tree : EventTree) (path : List Nat) (origin : Nat) (other : EventTree)
    (otherPath : List Nat) (target : Nat) : Except EditError (EventTree × EventTree) := do
  let source ← tree.treeAt path
  let goal ← other.treeAt otherPath
  let (source, goal) ← transfer source origin goal target
  return (tree.setTreeAt path source, other.setTreeAt otherPath goal)

end EventTree

end SceneLogic

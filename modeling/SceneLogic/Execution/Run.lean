import SceneLogic.Execution.Registry

/-!
# Running events

Events run in order.  A standard event starts from what its parent has picked; when
its conditions pass, its actions run and then its sub-events, which start from what
is picked by then.  A group runs its events as if they stood in its place.  Functions
run only when they are called, comments never, and a disabled event is skipped with
everything below it.

A called function is looked up in the whole tree.  It starts from nothing picked but
the list that is passed to it, and the caller's picking stays as it was.  Calls may
nest up to a limit.  An error ends the run; what was done before it stays done.

## Main definitions

* `conditionsPass`, `runActions` — the conditions and actions of an event.
* `EventTree.runFrom` — the events of a tree, given how functions are called.
* `callFrom` — a call, given how deep calls may still nest.
* `EventTree.run`, `EventTree.callFunction` — a run and a call from outside.
-/

namespace SceneLogic

/-- How many calls may nest unless something else is said. -/
def defaultCallLimit : Nat := 64

/-- How a function is called by name, with the name of the objects passed to it. -/
abbrev Call := String → Option String → Context → Except ExecutionError Unit × Context

/-- Test conditions in order, up to the first that does not pass. -/
def conditionsPass (registry : Registry) (conditions : List Instruction) (context : Context) :
    Except ExecutionError Bool × Context :=
  match conditions with
  | [] => (.ok true, context)
  | condition :: rest =>
    match registry.execute condition .condition context with
    | (.error error, context) => (.error error, context)
    | (.ok output, context) =>
      match output.truth? with
      | none =>
        (.error (.instructionFailed condition.operation "condition produced no result"), context)
      | some holds =>
        if holds = condition.inverted then (.ok false, context)
        else conditionsPass registry rest context

/-- Carry out one action, and the call that it may ask for. -/
def runAction (registry : Registry) (call : Call) (action : Instruction) (context : Context) :
    Except ExecutionError Unit × Context :=
  match registry.execute action .action context with
  | (.error error, context) => (.error error, context)
  | (.ok (.call function objects), context) => call function objects context
  | (.ok _, context) => (.ok (), context)

/-- Carry out actions in order. -/
def runActions (registry : Registry) (call : Call) (actions : List Instruction)
    (context : Context) : Except ExecutionError Unit × Context :=
  match actions with
  | [] => (.ok (), context)
  | action :: rest =>
    match runAction registry call action context with
    | (.error error, context) => (.error error, context)
    | (.ok (), context) => runActions registry call rest context

/-- The conditions of a body and, if they pass, its actions.  The answer is whether
they passed. -/
def runBody (registry : Registry) (call : Call) (body : Body) (context : Context) :
    Except ExecutionError Bool × Context :=
  match conditionsPass registry body.conditions context with
  | (.ok true, context) =>
    match runActions registry call body.actions context with
    | (.error error, context) => (.error error, context)
    | (.ok (), context) => (.ok true, context)
  | (result, context) => (result, context)

mutual

/-- Run one event, starting from what its parent has picked. -/
def Event.runFrom (registry : Registry) (call : Call) (event : Event) (picking : Picking)
    (scene : Scene) : Except ExecutionError Unit × Scene :=
  match event with
  | .branch flags header events =>
    if flags.disabled then (.ok (), scene)
    else
      match header with
      | .standard body =>
        match runBody registry call body ⟨scene, picking⟩ with
        | (.error error, context) => (.error error, context.scene)
        | (.ok false, context) => (.ok (), context.scene)
        | (.ok true, context) =>
          EventTree.runFrom registry call events context.picking context.scene
      | .group _ => EventTree.runFrom registry call events picking scene
      | .function _ _ => (.ok (), scene)
  | .comment _ _ => (.ok (), scene)

/-- Run events in order, each starting from what their parent has picked. -/
def EventTree.runFrom (registry : Registry) (call : Call) (events : List Event)
    (picking : Picking) (scene : Scene) : Except ExecutionError Unit × Scene :=
  match events with
  | [] => (.ok (), scene)
  | event :: rest =>
    match event.runFrom registry call picking scene with
    | (.error error, scene) => (.error error, scene)
    | (.ok (), scene) => EventTree.runFrom registry call rest picking scene

end

/-- What a function starts from, and the caller's picking with the passed list filled.
The live ones of the passed objects are picked under the name of the argument. -/
def bindArgument (function : Function) (objects : Option String) (context : Context) :
    Picking × Picking :=
  match objects with
  | none => (∅, context.picking)
  | some objects =>
    if function.signature.argument = "" then (∅, context.picking)
    else
      let store := context.scene.objects
      let (handles, picking) := context.picking.ensure objects store
      (NameMap.empty.insert function.signature.argument (handles.filter store.isAlive), picking)

/-- Run the body of a function and its sub-events. -/
def Function.runFrom (registry : Registry) (call : Call) (function : Function)
    (context : Context) : Except ExecutionError Unit × Scene :=
  match runBody registry call function.body context with
  | (.error error, context) => (.error error, context.scene)
  | (.ok false, context) => (.ok (), context.scene)
  | (.ok true, context) =>
    EventTree.runFrom registry call function.events context.picking context.scene

/-- Call a function of a tree, when calls may nest `depth` deep from here.  A disabled
function does nothing. -/
def callFrom (registry : Registry) (tree : EventTree) (limit depth : Nat) : Call :=
  fun name objects context =>
    match depth with
    | 0 => (.error (.callDepthExceeded limit), context)
    | depth + 1 =>
      match EventTree.findFunction? name tree with
      | none => (.error (.functionNotFound name), context)
      | some function =>
        if function.flags.disabled then (.ok (), context)
        else
          let (lists, picking) := bindArgument function objects context
          let (result, scene) :=
            function.runFrom registry (callFrom registry tree limit depth) ⟨context.scene, lists⟩
          (result, ⟨scene, picking⟩)

namespace EventTree

/-- Run the events of a tree once, each from nothing picked. -/
def run (registry : Registry) (limit : Nat) (tree : EventTree) (scene : Scene) :
    Except ExecutionError Unit × Scene :=
  EventTree.runFrom registry (callFrom registry tree limit limit) tree ∅ scene

/-- Call a function of a tree by name, without objects. -/
def callFunction (registry : Registry) (limit : Nat) (tree : EventTree) (name : String)
    (scene : Scene) : Except ExecutionError Unit × Scene :=
  let (result, context) := callFrom registry tree limit limit name none ⟨scene, ∅⟩
  (result, context.scene)

end EventTree

end SceneLogic

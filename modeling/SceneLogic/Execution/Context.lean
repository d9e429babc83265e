import SceneLogic.Expression
import SceneLogic.Scene

/-!
# What an instruction works on

An instruction is carried out on a context: the scene and what the current event
has picked in it.  It answers with an output and leaves a changed context.

## Main definitions

* `Context` — the scene and the picking; `Context.picked`, `Context.firstPicked?`.
* `Instruction.name?`, `Instruction.value?` — the parameters as names and values.
* `Output` — what an instruction answers; `Executor` — how it is carried out.
-/

namespace SceneLogic

open Json

/-- The scene, and what the current event has picked in it. -/
structure Context where
  scene : Scene
  picking : Picking
deriving DecidableEq

namespace Context

/-- The live handles that are picked of an object. -/
def picked (context : Context) (object : String) : List Handle × Context :=
  let (handles, picking) := context.picking.picked object context.scene.objects
  (handles, { context with picking })

/-- The first live handle that is picked of an object. -/
def firstPicked? (context : Context) (object : String) : Option Handle × Context :=
  let (handle, picking) := context.picking.firstPicked? object context.scene.objects
  (handle, { context with picking })

/-- Change the scene. -/
def updateScene (context : Context) (change : Scene → Scene) : Context :=
  { context with scene := change context.scene }

/-- Change the scene by one handle after another. -/
def forEach (context : Context) (handles : List Handle) (change : Scene → Handle → Scene) :
    Context :=
  context.updateScene fun scene => handles.foldl change scene

end Context

namespace Instruction

/-- The parameter at a position as a name. -/
def name? (instruction : Instruction) (index : Nat) : Option String :=
  (instruction.parameter? index).map Expression.resolveName

/-- The parameter at a position as a value. -/
def value? (instruction : Instruction) (index : Nat) : Option Value :=
  (instruction.parameter? index).map Expression.resolve

end Instruction

/-- What an instruction answers: that it is done, the truth of a condition before any
inversion, the wish to run a function on the objects picked under a name, or why it
could not be carried out. -/
inductive Output where
  | done
  | truth (holds : Bool)
  | call (function : String) (objects : Option String)
  | failure (message : String)
deriving DecidableEq, Repr

/-- The truth of a condition, if that is what was answered. -/
def Output.truth? : Output → Option Bool
  | .truth holds => some holds
  | _ => none

/-- How an instruction is carried out. -/
abbrev Executor := Instruction → Context → Output × Context

end SceneLogic

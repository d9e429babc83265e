import SceneLogic.Comparison
import SceneLogic.Execution.Registry

/-!
# The built-in instructions

Conditions that test variables or narrow what is picked, and actions on variables,
instances, links and functions.  A condition that narrows a list holds when
something is left in it.

Each instruction reads all of its names before it does anything, so an instruction
that lacks one has no effect.  A missing value counts as null.

## Main definitions

* `Builtin.operations` — the built-in operations.
* `Registry.builtin` — the registry that holds them.
-/

namespace SceneLogic

open Json

namespace Builtin

/-- Go on with the name at a position, which must be there. -/
def withName (instruction : Instruction) (index : Nat) (what : String) (context : Context)
    (next : String → Output × Context) : Output × Context :=
  match instruction.name? index with
  | some name => next name
  | none => (.failure ("missing " ++ what), context)

/-- The value at a position. -/
def valueAt (instruction : Instruction) (index : Nat) : Value :=
  (instruction.value? index).getD .null

/-- The outcome of a comparison as an output. -/
def comparison (a : Value) (sign : String) (b : Value) : Output :=
  match compare? a sign b with
  | some holds => .truth holds
  | none => .failure ("unknown operator " ++ sign)

/-! ## Variables -/

/-- Always holds. -/
def isTrue : Executor := fun _ context => (.truth true, context)

/-- Compare a variable of the scene with a value; false when it is not set. -/
def compareVariable : Executor := fun instruction context =>
  withName instruction 0 "variable name" context fun name =>
  withName instruction 1 "operator" context fun sign =>
    match context.scene.valueOf? name with
    | none => (.truth false, context)
    | some current => (comparison current sign (valueAt instruction 2), context)

/-- Whether a variable of the scene is set. -/
def variableExists : Executor := fun instruction context =>
  withName instruction 0 "variable name" context fun name =>
    (.truth (context.scene.valueOf? name).isSome, context)

/-- Set a variable of the scene. -/
def setVariable : Executor := fun instruction context =>
  withName instruction 0 "variable name" context fun name =>
    (.done, context.updateScene (·.setVariable name (valueAt instruction 1)))

/-! ## Instances -/

/-- Whether an instance has a variable that is equal to a value. -/
def hasValue (store : Store) (key : String) (value : Value) (handle : Handle) : Bool :=
  match (store.get? handle).bind (·.bindings.get? key) with
  | some current => decide (Comparison.equal.Holds current value)
  | none => false

/-- Keep the instances of an object whose variable equals a value. -/
def pickByVariable : Executor := fun instruction context =>
  withName instruction 0 "object" context fun object =>
  withName instruction 1 "variable name" context fun key =>
    let store := context.scene.objects
    let (handles, picking) := context.picking.ensure object store
    let left := handles.filter (hasValue store key (valueAt instruction 2))
    (.truth !left.isEmpty, { context with picking := picking.insert object left })

/-- Compare the number of picked instances of an object with a value. -/
def countObjects : Executor := fun instruction context =>
  withName instruction 0 "object" context fun object =>
  withName instruction 1 "operator" context fun sign =>
    let (handles, context) := context.picked object
    (comparison (.ofNat handles.length) sign (valueAt instruction 2), context)

/-- Create an instance of an object and pick it. -/
def createObject : Executor := fun instruction context =>
  withName instruction 0 "object" context fun object =>
    let (handle, scene) := context.scene.createObject object
    (.done, { scene, picking := context.picking.addCreated object handle })

/-- Destroy the picked instances of an object. -/
def deleteObjects : Executor := fun instruction context =>
  withName instruction 0 "object" context fun object =>
    let (handles, context) := context.picked object
    let context := context.forEach handles fun scene handle => (scene.deleteObject handle).2
    (.done, { context with picking := context.picking.retainLive context.scene.objects })

/-- Set a variable of the picked instances of an object. -/
def setObjectVariable : Executor := fun instruction context =>
  withName instruction 0 "object" context fun object =>
  withName instruction 1 "variable name" context fun key =>
    let (handles, context) := context.picked object
    (.done, context.forEach handles fun scene handle =>
      { scene with
        objects := scene.objects.modify handle (·.setVariable key (valueAt instruction 2)) })

/-! ## Links -/

/-- Keep the instances of an object that are linked with the first picked instance of
another object. -/
def pickLinked : Executor := fun instruction context =>
  withName instruction 0 "object" context fun object =>
  withName instruction 1 "linked object" context fun other =>
    let (target, context) := context.firstPicked? other
    let (_, context) := context.picked object
    let (part, rest) := context.picking.splitOff [object]
    let (holds, part) := context.scene.pickLinked part target
    (.truth holds, { context with picking := rest.merge part })

/-- Do something to the picked instances of an object, together with the first picked
instance of another object. -/
def forEachWith (change : Scene → Option Handle → Option Handle → Scene) : Executor :=
  fun instruction context =>
    withName instruction 0 "object" context fun object =>
    withName instruction 1 "linked object" context fun other =>
      let (target, context) := context.firstPicked? other
      let (handles, context) := context.picked object
      (.done, context.forEach handles fun scene handle => change scene (some handle) target)

/-- Link the picked instances of an object with the first of another. -/
def linkObjects : Executor := forEachWith Scene.joinObjects

/-- Remove the links between the picked instances of an object and the first of another. -/
def unlinkObjects : Executor := forEachWith Scene.partObjects

/-- Remove all links of the picked instances of an object. -/
def unlinkAllOfObject : Executor := fun instruction context =>
  withName instruction 0 "object" context fun object =>
    let (handles, context) := context.picked object
    (.done, context.forEach handles fun scene handle => scene.isolateObject (some handle))

/-! ## Functions -/

/-- Ask for a function to be run, on the picked instances of an object if it is named. -/
def callFunction : Executor := fun instruction context =>
  withName instruction 0 "function name" context fun name =>
    (.call name ((instruction.name? 1).filter (· ≠ "")), context)

/-! ## The list of operations -/

/-- A parameter that must be given. -/
def required (name : String) : Parameter := ⟨name, false⟩

/-- An operation with its description. -/
def operation (kind : InstructionKind) (id name category description : String)
    (parameters : List Parameter) (execute : Executor) : Operation :=
  ⟨⟨id, kind, name, category, some description, parameters⟩, execute⟩

/-- The built-in operations. -/
def operations : List Operation :=
  [operation .condition "common/IsTrue" "Always" "Common" "Always true" [] isTrue,
    operation .condition "variables/Compare" "Compare variable" "Variables"
      "Compare a scene variable with a value"
      [required "name", required "operator", required "value"] compareVariable,
    operation .condition "variables/Exists" "Variable exists" "Variables"
      "Check that a scene variable is set" [required "name"] variableExists,
    operation .action "variables/Set" "Set variable" "Variables" "Set a scene variable"
      [required "name", required "value"] setVariable,
    operation .condition "objects/VarEquals" "Object variable" "Objects"
      "Pick the objects whose variable equals a value"
      [required "object", required "variable", required "value"] pickByVariable,
    operation .condition "objects/Count" "Number of objects" "Objects"
      "Compare the number of picked objects with a value"
      [required "object", required "operator", required "value"] countObjects,
    operation .action "objects/Create" "Create object" "Objects"
      "Create an instance and pick it" [required "object"] createObject,
    operation .action "objects/Delete" "Delete objects" "Objects"
      "Delete every picked instance" [required "object"] deleteObjects,
    operation .action "objects/SetVar" "Set object variable" "Objects"
      "Set a variable of every picked instance"
      [required "object", required "variable", required "value"] setObjectVariable,
    operation .condition "linked/PickObjectsLinkedTo" "Linked objects" "Linked objects"
      "Pick the objects linked to the first picked instance of another object"
      [required "object to pick", required "linked to"] pickLinked,
    operation .action "linked/LinkObjects" "Link objects" "Linked objects"
      "Link every picked instance to the first picked instance of another object"
      [required "object", required "link to"] linkObjects,
    operation .action "linked/RemoveLinkBetween" "Unlink objects" "Linked objects"
      "Remove the links between picked instances and the first picked instance of another object"
      [required "object", required "unlink from"] unlinkObjects,
    operation .action "linked/RemoveAllLinksOf" "Unlink all" "Linked objects"
      "Remove every link of the picked instances" [required "object"] unlinkAllOfObject,
    operation .action callOperation "Call function" "Functions"
      "Run a function event, passing it the picked instances of an object"
      [required "function", ⟨"objects", true⟩] callFunction]

end Builtin

/-- The registry that holds the built-in operations. -/
def Registry.builtin : Registry :=
  Builtin.operations.foldl
    (fun registry operation => registry.register operation.definition operation.execute) ∅

end SceneLogic

import SceneLogic.Execution.Context
import SceneLogic.Execution.Error

/-!
# The registry of instructions

A registry says, for each operation that events may name, what kind of instruction
it is, which parameters it takes and how it is carried out.  Instructions are
checked against it before they are carried out, and whole trees can be checked
without running them.

## Main definitions

* `Definition` — what is known of an operation; `Definition.arity`.
* `Registry` — definitions and executors by operation.
* `Registry.validate`, `Registry.validateEvents` — the checks.
-/

namespace SceneLogic

/-- A declared parameter.  Optional ones may be left out at the end. -/
structure Parameter where
  name : String
  optional : Bool
deriving DecidableEq, Repr

/-- What is known of an operation. -/
structure Definition where
  id : String
  kind : InstructionKind
  name : String
  category : String
  description : Option String
  parameters : List Parameter
deriving DecidableEq, Repr

/-- The least and the greatest number of parameters that an operation takes. -/
def Definition.arity (definition : Definition) : Nat × Nat :=
  ((definition.parameters.filter fun parameter => !parameter.optional).length,
    definition.parameters.length)

/-- An operation with its definition and its executor. -/
structure Operation where
  definition : Definition
  execute : Executor

/-- The operations that events may name, by id. -/
abbrev Registry := NameMap Operation

/-- The operation that runs a function. -/
def callOperation : String := "functions/Call"

namespace Registry

/-- Add an operation, in place of one with the same id. -/
def register (registry : Registry) (definition : Definition) (execute : Executor) : Registry :=
  registry.insert definition.id ⟨definition, execute⟩

/-- The definition of an operation. -/
def definition? (registry : Registry) (id : String) : Option Definition :=
  (registry.get? id).map (·.definition)

/-- The executor of an operation. -/
def executor? (registry : Registry) (id : String) : Option Executor :=
  (registry.get? id).map (·.execute)

/-- All definitions, in the order of their ids. -/
def definitions (registry : Registry) : List Definition := registry.values.map (·.definition)

/-- The categories of all definitions, in order and each once. -/
def categories (registry : Registry) : List String :=
  (NameMap.ofList (registry.definitions.map fun definition => (definition.category, ()))).keys

/-- The definition of an instruction that is used as a kind.  The operation must be
known, be of that kind, and take as many parameters as there are, in this order. -/
def validate (registry : Registry) (instruction : Instruction) (kind : InstructionKind) :
    Except ExecutionError Definition :=
  match registry.definition? instruction.operation with
  | none => .error (.unknownInstruction instruction.operation kind)
  | some definition =>
    let (least, most) := definition.arity
    let found := instruction.parameters.length
    if definition.kind ≠ kind then
      .error (.kindMismatch instruction.operation definition.kind kind)
    else if found < least ∨ most < found then
      .error (.arityMismatch instruction.operation least most found)
    else .ok definition

/-- What is wrong with an instruction in a tree: it is not valid, or it calls a
function that the tree does not have. -/
def problem? (registry : Registry) (tree : EventTree) (kind : InstructionKind)
    (instruction : Instruction) : Option ExecutionError :=
  match registry.validate instruction kind with
  | .error error => some error
  | .ok _ =>
    if instruction.operation = callOperation then
      (instruction.name? 0).bind fun name =>
        if (EventTree.findFunction? name tree).isNone then some (.functionNotFound name) else none
    else none

/-- Everything that is wrong in a tree, in the order of the walk and in each event
with the conditions first. -/
def validateEvents (registry : Registry) (tree : EventTree) : List ExecutionError :=
  tree.walk.flatMap fun (_, event) =>
    event.instructionLists.flatMap fun (kind, instructions) =>
      instructions.filterMap (registry.problem? tree kind)

/-- Carry out an instruction, after checking it. -/
def execute (registry : Registry) (instruction : Instruction) (kind : InstructionKind)
    (context : Context) : Except ExecutionError Output × Context :=
  match registry.validate instruction kind, registry.executor? instruction.operation with
  | .error error, _ => (.error error, context)
  | .ok _, none => (.error (.unknownInstruction instruction.operation kind), context)
  | .ok _, some executor =>
    match executor instruction context with
    | (.failure message, context) =>
      (.error (.instructionFailed instruction.operation message), context)
    | (output, context) => (.ok output, context)

end Registry

end SceneLogic

/-!
# Instructions

A condition or an action of an event names an operation and gives its parameters
as expressions.  The number of parameters is not checked here.

## Main definitions

* `Instruction` — operation, parameters, and whether a condition is inverted.
* `InstructionKind` — the two uses of an instruction.
-/

namespace SceneLogic

/-- The use of an instruction. -/
inductive InstructionKind where
  | condition
  | action
deriving DecidableEq, Repr

/-- The name of a use. -/
def InstructionKind.name : InstructionKind → String
  | .condition => "condition"
  | .action => "action"

/-- A condition or an action.  Inversion matters to conditions only. -/
structure Instruction where
  operation : String
  parameters : List String
  inverted : Bool
deriving DecidableEq, Repr

namespace Instruction

/-- The parameter at a position. -/
def parameter? (instruction : Instruction) (index : Nat) : Option String :=
  instruction.parameters[index]?

/-- Replace the parameter at a position, after empty ones where parameters before
it are missing. -/
def setParameter (instruction : Instruction) (index : Nat) (value : String) : Instruction :=
  { instruction with
    parameters := (instruction.parameters ++
      List.replicate (index + 1 - instruction.parameters.length) "").set index value }

end Instruction

end SceneLogic

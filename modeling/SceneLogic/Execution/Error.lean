import SceneLogic.Event.Instruction

/-!
# Errors of execution

Why an instruction is refused, fails, or cannot call a function.
-/

namespace SceneLogic

/-- Why a run of events stops. -/
inductive ExecutionError where
  | unknownInstruction (operation : String) (kind : InstructionKind)
  | kindMismatch (operation : String) (registered used : InstructionKind)
  | arityMismatch (operation : String) (least most found : Nat)
  | instructionFailed (operation message : String)
  | functionNotFound (name : String)
  | callDepthExceeded (limit : Nat)
deriving DecidableEq, Repr

instance decidableEqExcept {ε : Type u} {α : Type v} [DecidableEq ε] [DecidableEq α] :
    DecidableEq (Except ε α)
  | .error a, .error b => decidable_of_iff (a = b) (by rw [Except.error.injEq])
  | .ok a, .ok b => decidable_of_iff (a = b) (by rw [Except.ok.injEq])
  | .error _, .ok _ => isFalse nofun
  | .ok _, .error _ => isFalse nofun

/-- The wording of an error. -/
def ExecutionError.message : ExecutionError → String
  | .unknownInstruction operation kind => "Unknown " ++ kind.name ++ ": " ++ operation
  | .kindMismatch operation registered used =>
    operation ++ " is registered as " ++ registered.name ++ ", used as " ++ used.name
  | .arityMismatch operation least most found =>
    s!"{operation} expects {least}..={most} parameters, got {found}"
  | .instructionFailed operation message => operation ++ " failed: " ++ message
  | .functionNotFound name => "Function not found: " ++ name
  | .callDepthExceeded limit => s!"Function call depth exceeded ({limit})"

end SceneLogic

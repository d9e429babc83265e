import SceneLogic.Json.Parser
import SceneLogic.Text.WhiteSpace

/-!
# Parameter expressions

A parameter of an instruction is written as an expression.  An expression that is
a JSON text, white space around it apart, stands for the value of that text; any
other expression stands for itself as a string.

Where a parameter names something, a JSON string gives the name it denotes and
every other expression is the name as it is written: `"Enemy"` and `Enemy` are
one name, and `3` is the name of one character.

## Main definitions

* `Expression.resolve` — the value of an expression.
* `Expression.resolveName` — the name that an expression gives.
-/

namespace SceneLogic.Expression

open Json

/-- The value of an expression. -/
def resolve (expression : String) : Value :=
  (Value.parse? (String.ofList (trimWhiteSpace expression.toList))).getD (.string expression)

/-- The name that an expression gives. -/
def resolveName (expression : String) : String :=
  match (resolve expression).document with
  | .string name => name
  | _ => expression

end SceneLogic.Expression

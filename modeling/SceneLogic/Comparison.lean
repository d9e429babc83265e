import SceneLogic.Json.Document

/-!
# Comparing values

Two numbers compare by size, whatever their kinds; an integer takes part as the
nearest float.  All other values are only equal or different, and none of the
four orderings holds of them.

## Main definitions

* `Comparison` — the six comparisons; `Comparison.ofSign?` reads an operator.
* `Comparison.Holds` — when a comparison holds of two values.
-/

namespace SceneLogic

open Json

/-- A comparison of two values. -/
inductive Comparison where
  | equal
  | different
  | less
  | lessOrEqual
  | greater
  | greaterOrEqual
deriving DecidableEq, Repr

namespace Comparison

/-- The comparison that an operator denotes; equality has two signs. -/
def ofSign? (sign : String) : Option Comparison :=
  match sign with
  | "==" | "=" => some .equal
  | "!=" => some .different
  | "<" => some .less
  | "<=" => some .lessOrEqual
  | ">" => some .greater
  | ">=" => some .greaterOrEqual
  | _ => none

/-- When a comparison holds of two sizes. -/
def HoldsOfSizes (comparison : Comparison) (a b : Int) : Prop :=
  match comparison with
  | .equal => a = b
  | .different => a ≠ b
  | .less => a < b
  | .lessOrEqual => a ≤ b
  | .greater => b < a
  | .greaterOrEqual => b ≤ a

instance (comparison : Comparison) (a b : Int) : Decidable (comparison.HoldsOfSizes a b) := by
  unfold HoldsOfSizes
  cases comparison <;> infer_instance

/-- The number that a value is, if it is one. -/
def number? (value : Value) : Option Binary64 :=
  match value.document with
  | .number n => some n.toBinary64
  | _ => none

/-- When a comparison holds of two values. -/
def Holds (comparison : Comparison) (a b : Value) : Prop :=
  match number? a, number? b with
  | some x, some y => comparison.HoldsOfSizes x.units y.units
  | _, _ =>
    match comparison with
    | .equal => a.agrees b = true
    | .different => a.agrees b = false
    | _ => False

instance (comparison : Comparison) (a b : Value) : Decidable (comparison.Holds a b) := by
  unfold Holds
  cases number? a <;> cases number? b <;> cases comparison <;> infer_instance

end Comparison

/-- The outcome of comparing two values by an operator; none for an unknown operator. -/
def compare? (a : Value) (sign : String) (b : Value) : Option Bool :=
  (Comparison.ofSign? sign).map fun comparison => decide (comparison.Holds a b)

end SceneLogic

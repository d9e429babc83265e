import SceneLogic.Number.Binary64

/-!
# TOML values

The values of a TOML document.  Of dates and times it matters only that they are
none of the other values.

## Main definitions

* `Toml.Value` — a value.
* `Toml.Fields` — a value read as a record: fields by name, or in order.
-/

namespace SceneLogic.Toml

/-- A value.  A float is none when it is not finite. -/
inductive Value where
  | string (s : String)
  | integer (n : Int)
  | float (x : Option Binary64)
  | boolean (b : Bool)
  | dateTime
  | array (items : List Value)
  | table (members : List (String × Value))

instance : Inhabited Value := ⟨.table []⟩

namespace Value

/-- The string that a value is, if it is one. -/
def string? : Value → Option String
  | .string s => some s
  | _ => none

/-- The natural number below a bound that a value is, if it is one. -/
def natBelow? (bound : Nat) : Value → Option Nat
  | .integer n => if 0 ≤ n ∧ n < bound then some n.toNat else none
  | _ => none

/-- The number that a value is, if it is one; integers count as floats. -/
def number? : Value → Option (Option Binary64)
  | .integer n => some (some (.ofInt n))
  | .float x => some x
  | _ => none

end Value

/-- A value read as a record. -/
inductive Fields where
  | named (members : List (String × Value))
  | listed (items : List Value)

namespace Fields

/-- The fields of a value.  A date has fields that no record knows. -/
def ofValue? : Value → Option Fields
  | .table members => some (.named members)
  | .dateTime => some (.named [])
  | .array items => some (.listed items)
  | _ => none

/-- The value of the field with a name, which is the field at an index. -/
def find? (fields : Fields) (name : String) (index : Nat) : Option Value :=
  match fields with
  | .named members => members.lookup name
  | .listed items => items[index]?

/-- A field that must be given. -/
def required (fields : Fields) (name : String) (index : Nat) (read : Value → Option α) : Option α :=
  (fields.find? name index).bind read

/-- A field that has a value of its own when it is not given. -/
def optional (fields : Fields) (name : String) (index : Nat) (read : Value → Option α)
    (missing : α) : Option α :=
  match fields.find? name index with
  | none => some missing
  | some value => read value

/-- A field that may be missing among named ones; in order it must be given. -/
def possible (fields : Fields) (name : String) (index : Nat) (read : Value → Option α) :
    Option (Option α) :=
  match fields, fields.find? name index with
  | .named _, none => some none
  | .listed _, none => none
  | _, some value => (read value).map some

end Fields

end SceneLogic.Toml

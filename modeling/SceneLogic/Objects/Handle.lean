import SceneLogic.Text.Digits

/-!
# Handles

A handle names an instance by the slot that holds it and the generation of the
slot when the handle was made.  The generation of a slot changes when its instance
is destroyed, so a handle does not name a later instance in the same slot.

## Main definitions

* `Handle` — slot and generation; `Handle.text` and `Handle.ofText?` write and read it.
-/

namespace SceneLogic

/-- A name for an instance. -/
@[ext] structure Handle where
  slot : UInt32
  generation : UInt32
deriving DecidableEq, Repr

namespace Handle

/-- The text of a handle: `#`, the slot, `v`, the generation. -/
def text (handle : Handle) : String :=
  String.ofList ('#' :: natText handle.slot.toNat ++ 'v' :: natText handle.generation.toNat)

/-- The word that a text denotes in decimal digits. -/
def word? (digits : List Char) : Option UInt32 :=
  if digits ≠ [] ∧ digits.all Char.isDigit then
    if digitsValue digits < UInt32.size then some (UInt32.ofNat (digitsValue digits)) else none
  else none

/-- The handle that a text denotes. -/
def ofText? (text : String) : Option Handle :=
  match text.toList with
  | '#' :: rest =>
    match rest.span (· ≠ 'v') with
    | (slot, 'v' :: generation) => do
      return ⟨← word? slot, ← word? generation⟩
    | _ => none
  | _ => none

end Handle

end SceneLogic

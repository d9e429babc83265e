import SceneLogic.Number.Binary64

/-!
# Decimal numerals of binary numbers

Reading a decimal numeral gives the nearest binary number.  Writing gives the
numeral with the fewest digits that reads back as the same number, and among
those the nearest to it.

The writer tries decimal grids from coarse to fine and keeps the first numeral
that reads back.  Whether a numeral reads back is decided by the reader itself,
and the exact decimal expansion stands behind the last grid, so that what is
written always reads back.

## Main definitions

* `Decimal` — `digits * 10 ^ exponent`.
* `Binary64.ofDecimal?` — the nearest binary number.
* `Binary64.shortest` — the shortest decimal that reads back.
-/

namespace SceneLogic

/-- The number `digits * 10 ^ exponent`. -/
structure Decimal where
  digits : Nat
  exponent : Int
deriving DecidableEq, Repr

namespace Binary64

/-- The nearest number to a decimal; none beyond the greatest number.

This is the correctly rounded number for every decimal.  A reader that makes do with the
arithmetic of the binary numbers is faster, and gives a neighbour of that number for some
decimals of many digits; such a reader is not modelled.

The first two tests only keep the powers of ten small: a decimal of at least
`10 ^ 401` is beyond every number, one below `10 ^ -399` rounds to zero. -/
def ofDecimal? (negative : Bool) (decimal : Decimal) : Option Binary64 :=
  if decimal.digits = 0 then some (zero negative)
  else if 400 < decimal.exponent then none
  else if decimal.exponent + decimal.digits.log2 < -400 then some (zero negative)
  else
    ofRatio? negative (decimal.digits * Nat.pow 10 decimal.exponent.toNat)
      (Nat.pow 10 (-decimal.exponent).toNat)

/-- Whether a decimal reads as this number. -/
def ReadsBack (x : Binary64) (decimal : Decimal) : Prop :=
  ofDecimal? x.negative decimal = some x

instance (x : Binary64) : DecidablePred x.ReadsBack := fun _ => inferInstanceAs (Decidable (_ = _))

/-- The decimals next to a number on the grid of multiples of `10 ^ exponent`,
the nearer one first and of two equally near the even one. -/
def neighbours (x : Binary64) (exponent : Int) : List Decimal :=
  let num := (x.significand <<< x.exponent.toNat) * Nat.pow 10 (-exponent).toNat
  let den := Nat.pow 10 exponent.toNat <<< (-x.exponent).toNat
  let below := num / den
  if num % den = 0 then [⟨below, exponent⟩]
  else if roundQuotient num den = below then [⟨below, exponent⟩, ⟨below + 1, exponent⟩]
  else [⟨below + 1, exponent⟩, ⟨below, exponent⟩]

/-- A power of ten above a number, as an exponent.  The factor is a decimal
approximation of the logarithm of two from above. -/
def decimalOrder (x : Binary64) : Int :=
  (x.significand.log2 + x.exponent + 1) * 30103 / 100000 + 2

/-- The decimal that is equal to the number. -/
def exactDecimal (x : Binary64) : Decimal :=
  if 0 ≤ x.exponent then ⟨x.significand <<< x.exponent.toNat, 0⟩
  else ⟨x.significand * Nat.pow 5 (-x.exponent).toNat, x.exponent⟩

/-- The decimal of the fewest digits that reads back, the nearest of those.
Seventeen digits always suffice; `decimalOrder` is at most four places above the
first of them. -/
def shortest (x : Binary64) : Decimal :=
  if x.significand = 0 then ⟨0, 0⟩
  else
    ((List.range 22).findSome? fun (place : Nat) =>
      (x.neighbours (x.decimalOrder - place)).find? fun decimal => decide (x.ReadsBack decimal)).getD
      x.exactDecimal

end Binary64

end SceneLogic

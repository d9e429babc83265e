/-!
# Binary floating point numbers of 64 bits

The finite numbers of the IEEE 754 format `binary64`, held as a sign, a
significand and a power of two, so that reading, writing and comparing them is
exact integer arithmetic.  Infinities and the values that are no number are not
among them: no JSON number denotes one.

Every finite number is a whole number of *units* of `2 ^ -1074`, the least
positive one.  Comparison is comparison of units, which makes it a total order
up to the sign of zero.

## Main definitions

* `Binary64` — sign, significand, exponent, in the one admitted form.
* `Binary64.ofRatio?` — the nearest number to a quotient, ties to even.
* `Binary64.units` — the number as a multiple of the least positive one.
* `Binary64.add?` — the nearest number to a sum.
-/

namespace SceneLogic

/-- A finite number `± significand * 2 ^ exponent`.  The significand has 53 bits
unless the exponent is the least one, so equal numbers have equal fields, the
sign of zero apart. -/
structure Binary64 where
  negative : Bool
  significand : Nat
  exponent : Int
  canonical : significand < 1 <<< 53 ∧ -1074 ≤ exponent ∧ exponent ≤ 971 ∧
    (1 <<< 52 ≤ significand ∨ exponent = -1074)
deriving DecidableEq

namespace Binary64

/-- The number with these fields, if they are in the admitted form. -/
def make? (negative : Bool) (significand : Nat) (exponent : Int) : Option Binary64 :=
  if h : significand < 1 <<< 53 ∧ -1074 ≤ exponent ∧ exponent ≤ 971 ∧
      (1 <<< 52 ≤ significand ∨ exponent = -1074) then
    some ⟨negative, significand, exponent, h⟩
  else
    none

/-- Zero with a sign. -/
def zero (negative : Bool) : Binary64 :=
  ⟨negative, 0, -1074, by decide⟩

instance : Inhabited Binary64 := ⟨zero false⟩

/-- The quotient rounded to the nearest whole number, ties to the even one. -/
def roundQuotient (num den : Nat) : Nat :=
  let quotient := num / den
  let twice := 2 * (num % den)
  if twice < den then quotient
  else if den < twice then quotient + 1
  else quotient + quotient % 2

/-- The greatest power of two that is at most a positive quotient, as an exponent. -/
def binaryOrder (num den : Nat) : Int :=
  let guess : Int := (num.log2 : Int) - (den.log2 : Int)
  if den <<< guess.toNat ≤ num <<< (-guess).toNat then guess else guess - 1

/-- The nearest number to a quotient, ties to the even significand; none when the
quotient is beyond the greatest number by half a step or more. -/
def ofRatio? (negative : Bool) (num den : Nat) : Option Binary64 :=
  if num = 0 then
    some (zero negative)
  else
    let exponent := max (binaryOrder num den - 52) (-1074)
    let significand :=
      roundQuotient (num <<< (-exponent).toNat) (den <<< exponent.toNat)
    if significand = 1 <<< 53 then make? negative (1 <<< 52) (exponent + 1)
    else make? negative significand exponent

/-- The nearest number to an integer; zero for an integer beyond all of them. -/
def ofInt (n : Int) : Binary64 :=
  (ofRatio? (n < 0) n.natAbs 1).getD (zero false)

/-- The number in units of `2 ^ -1074`. -/
def units (x : Binary64) : Int :=
  let size := x.significand <<< (x.exponent + 1074).toNat
  if x.negative then -(size : Int) else (size : Int)

/-- The nearest number to a sum; none beyond the greatest one.  A sum of zero is
negative only if both of its parts are. -/
def add? (x y : Binary64) : Option Binary64 :=
  let sum := x.units + y.units
  if sum = 0 then some (zero (x.negative && y.negative))
  else ofRatio? (sum < 0) sum.natAbs (1 <<< 1074)

end Binary64

end SceneLogic

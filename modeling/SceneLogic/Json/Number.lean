import SceneLogic.Number.Decimal
import SceneLogic.Text.Digits

/-!
# JSON numbers

A number written without fraction and exponent is an integer as long as it fits
64 bits, with or without sign; every other number is a binary floating point
number.  The two kinds stay apart: `1` and `1.0` are different numbers, although
they compare as equal.

## Main definitions

* `Number` — an integer or a float; `Number.toBinary64` is what comparison sees.
* `Numeral` — the digits of a number as they were written; `Numeral.number?`.
* `Number.text` — the canonical text of a number.
-/

namespace SceneLogic.Json

/-- Whether an integer fits 64 bits, with or without sign. -/
abbrev FitsWord (n : Int) : Prop := -9223372036854775808 ≤ n ∧ n < 18446744073709551616

/-- An integer of 64 bits, signed or unsigned, or a float. -/
inductive Number where
  | integer (n : Int) (fits : FitsWord n)
  | float (x : Binary64)
deriving DecidableEq

namespace Number

/-- The integer, if it fits 64 bits. -/
def integer? (n : Int) : Option Number :=
  if h : FitsWord n then some (.integer n h) else none

/-- The number as a float; an integer goes to the nearest one. -/
def toBinary64 : Number → Binary64
  | .integer n _ => .ofInt n
  | .float x => x

/-- Equality of kind and value.  The two zeros of the floats are one value. -/
def agrees : Number → Number → Bool
  | .integer n _, .integer m _ => n = m
  | .float x, .float y => x.units = y.units
  | _, _ => false

end Number

/-- The parts of a written number.  The lists hold decimal digits. -/
structure Numeral where
  negative : Bool
  whole : List Char
  fraction : Option (List Char)
  exponent : Option Int
deriving DecidableEq, Repr

namespace Numeral

/-- The decimal that a numeral denotes, its sign apart. -/
def decimal (numeral : Numeral) : Decimal :=
  let fraction := numeral.fraction.getD []
  ⟨digitsValue (numeral.whole ++ fraction), numeral.exponent.getD 0 - fraction.length⟩

/-- The float that a numeral denotes; none beyond the greatest one.

It is the float nearest to the numeral.  A reader of JSON may also make do with a float next
to that one where the numeral has many digits; this one never does, and therefore every
written float is read back. -/
def float? (numeral : Numeral) : Option Number :=
  (Binary64.ofDecimal? numeral.negative numeral.decimal).map .float

/-- The number that a numeral denotes.  Only a numeral without fraction and
exponent can denote an integer, and minus zero is a float. -/
def number? (numeral : Numeral) : Option Number :=
  match numeral.fraction, numeral.exponent with
  | none, none =>
    let size := digitsValue numeral.whole
    if numeral.negative then
      if size = 0 then numeral.float? else (Number.integer? (-(size : Int))).orElse fun _ => numeral.float?
    else
      (Number.integer? size).orElse fun _ => numeral.float?
  | _, _ => numeral.float?

end Numeral

/-- The text of a decimal, always with a fraction or an exponent.  With its first
digit between the places `10 ^ -5` and `10 ^ 15` it is written out, otherwise with
one digit before the point and a signed exponent. -/
def decimalText (decimal : Decimal) : List Char :=
  let digits := natText decimal.digits
  let leading : Int := decimal.exponent + digits.length - 1
  if -5 ≤ leading ∧ leading ≤ 15 then
    if 0 ≤ decimal.exponent then
      digits ++ List.replicate decimal.exponent.toNat '0' ++ ['.', '0']
    else if 0 ≤ leading then
      digits.take (leading + 1).toNat ++ '.' :: digits.drop (leading + 1).toNat
    else
      '0' :: '.' :: List.replicate (-leading - 1).toNat '0' ++ digits
  else
    let fraction := if digits.length = 1 then [] else '.' :: digits.drop 1
    let exponent := if 0 ≤ leading then '+' :: intText leading else intText leading
    digits.take 1 ++ fraction ++ 'e' :: exponent

/-- The text of a float: the shortest decimal that reads back. -/
def floatText (x : Binary64) : List Char :=
  if x.negative then '-' :: decimalText x.shortest else decimalText x.shortest

/-- The text of a number. -/
def Number.text : Number → List Char
  | .integer n _ => intText n
  | .float x => floatText x

end SceneLogic.Json

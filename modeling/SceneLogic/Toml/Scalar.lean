import SceneLogic.Number.Decimal
import SceneLogic.Text.Digits
import SceneLogic.Toml.Value

/-!
# Strings, numbers, dates and times

The values that hold no others, as they are written.  Every reader takes the text
and gives what it read with the rest of the text.

## Main definitions

* `scanText` — a string in one of its four forms.
* `scanNumber` — an integer, a float, a date or a time.
* `scanKeyword` — a truth value, `inf` or `nan`.
-/

namespace SceneLogic.Toml

/-- What is read from a text, and the rest of the text. -/
abbrev Scan (α : Type) := List Char → Option (α × List Char)

/-- A space or a tab. -/
def isBlank (c : Char) : Bool := c = ' ' || c = '\t'

/-- A character that may stand in comments and strings: no control character but the
tab. -/
def isPlain (c : Char) : Bool := c = '\t' || (0x20 ≤ c.toNat && c.toNat ≠ 0x7F)

/-! ## Strings -/

/-- The character behind a backslash, other than a code. -/
def escapedChar? (c : Char) : Option Char :=
  if c = '"' || c = '\\' then some c
  else if c = 'b' then some '\x08'
  else if c = 'f' then some '\x0c'
  else if c = 'n' then some '\n'
  else if c = 'r' then some '\r'
  else if c = 't' then some '\t'
  else none

/-- The character with a code in hexadecimal digits. -/
def codeChar? (digits : List Char) : Option Char := do
  let values ← digits.mapM hexDigit?
  let code := values.foldl (fun code value => code * 16 + value) 0
  if code.isValidChar then some (Char.ofNat code) else none

/-- Put a character in front of what is read. -/
def withChar (c : Char) (read : Option (List Char × List Char)) :
    Option (List Char × List Char) :=
  read.map fun (chars, rest) => (c :: chars, rest)

/-- A string on one line after its opening quote. -/
def scanBasic : Scan (List Char)
  | [] => none
  | '"' :: rest => some ([], rest)
  | '\\' :: 'u' :: a :: b :: c :: d :: rest => do
    withChar (← codeChar? [a, b, c, d]) (scanBasic rest)
  | '\\' :: 'U' :: a :: b :: c :: d :: e :: f :: g :: h :: rest => do
    withChar (← codeChar? [a, b, c, d, e, f, g, h]) (scanBasic rest)
  | '\\' :: c :: rest => do withChar (← escapedChar? c) (scanBasic rest)
  | c :: rest => if isPlain c then withChar c (scanBasic rest) else none

/-- Whether a text goes on with blanks up to the end of the line. -/
def endsLine (text : List Char) : Bool :=
  match text.dropWhile isBlank with
  | '\n' :: _ => true
  | '\r' :: '\n' :: _ => true
  | _ => false

/-- A string over several lines after its opening quotes.  Up to two quotes may stand
before the closing three.  A backslash at the end of a line hides what follows up to
the next character that is no blank; `hidden` says that this is going on. -/
def scanBasicLines (hidden : Bool) : Scan (List Char)
  | [] => none
  | '"' :: '"' :: '"' :: '"' :: '"' :: rest => some (['"', '"'], rest)
  | '"' :: '"' :: '"' :: '"' :: rest => some (['"'], rest)
  | '"' :: '"' :: '"' :: rest => some ([], rest)
  | '"' :: rest => withChar '"' (scanBasicLines false rest)
  | '\\' :: 'u' :: a :: b :: c :: d :: rest => do
    withChar (← codeChar? [a, b, c, d]) (scanBasicLines false rest)
  | '\\' :: 'U' :: a :: b :: c :: d :: e :: f :: g :: h :: rest => do
    withChar (← codeChar? [a, b, c, d, e, f, g, h]) (scanBasicLines false rest)
  | '\\' :: c :: rest =>
    if endsLine (c :: rest) then scanBasicLines true rest
    else do withChar (← escapedChar? c) (scanBasicLines false rest)
  | '\r' :: '\n' :: rest =>
    if hidden then scanBasicLines true rest else withChar '\n' (scanBasicLines false rest)
  | '\n' :: rest =>
    if hidden then scanBasicLines true rest else withChar '\n' (scanBasicLines false rest)
  | c :: rest =>
    if hidden && isBlank c then scanBasicLines true rest
    else if isPlain c then withChar c (scanBasicLines false rest)
    else none

/-- A string on one line, without escapes, after its opening quote. -/
def scanLiteral : Scan (List Char)
  | [] => none
  | '\'' :: rest => some ([], rest)
  | c :: rest => if isPlain c then withChar c (scanLiteral rest) else none

/-- A string over several lines, without escapes, after its opening quotes. -/
def scanLiteralLines : Scan (List Char)
  | [] => none
  | '\'' :: '\'' :: '\'' :: '\'' :: '\'' :: rest => some (['\'', '\''], rest)
  | '\'' :: '\'' :: '\'' :: '\'' :: rest => some (['\''], rest)
  | '\'' :: '\'' :: '\'' :: rest => some ([], rest)
  | '\r' :: '\n' :: rest => withChar '\n' (scanLiteralLines rest)
  | '\n' :: rest => withChar '\n' (scanLiteralLines rest)
  | c :: rest => if isPlain c then withChar c (scanLiteralLines rest) else none

/-- The text without a line break at its front. -/
def dropLineBreak : List Char → List Char
  | '\n' :: rest => rest
  | '\r' :: '\n' :: rest => rest
  | text => text

/-- A string in one of its four forms. -/
def scanText : Scan String := fun text =>
  let read := match text with
    | '"' :: '"' :: '"' :: rest => scanBasicLines false (dropLineBreak rest)
    | '"' :: rest => scanBasic rest
    | '\'' :: '\'' :: '\'' :: rest => scanLiteralLines (dropLineBreak rest)
    | '\'' :: rest => scanLiteral rest
    | _ => none
  read.map fun (chars, rest) => (String.ofList chars, rest)

/-! ## Dates and times -/

/-- A number of two digits within bounds. -/
def scanTwo (least most : Nat) : Scan Nat
  | a :: b :: rest =>
    let n := digitsValue [a, b]
    if a.isDigit ∧ b.isDigit ∧ least ≤ n ∧ n ≤ most then some (n, rest) else none
  | _ => none

/-- A character that must stand at the front. -/
def expect (c : Char) : List Char → Option (List Char)
  | d :: rest => if c = d then some rest else none
  | [] => none

/-- The number of days in a month. -/
def daysIn (year month : Nat) : Nat :=
  if month = 2 then
    if year % 4 = 0 ∧ (year % 100 ≠ 0 ∨ year % 400 = 0) then 29 else 28
  else if month = 4 ∨ month = 6 ∨ month = 9 ∨ month = 11 then 30
  else 31

/-- The rest of a text after a fraction of a second, if there is one. -/
def dropFraction : List Char → List Char
  | '.' :: c :: rest => if c.isDigit then rest.dropWhile Char.isDigit else '.' :: c :: rest
  | text => text

/-- The rest of a text after a time.  A minute may have a leap second. -/
def afterTime (text : List Char) : Option (List Char) := do
  let (_, text) ← scanTwo 0 23 text
  let (_, text) ← scanTwo 0 59 (← expect ':' text)
  let (_, text) ← scanTwo 0 60 (← expect ':' text)
  return dropFraction text

/-- The rest of a text after the offset of a time, if there is one. -/
def afterOffset : List Char → Option (List Char)
  | 'Z' :: rest => some rest
  | 'z' :: rest => some rest
  | '+' :: rest | '-' :: rest => do
    let (_, rest) ← scanTwo 0 23 rest
    let (_, rest) ← scanTwo 0 59 (← expect ':' rest)
    return rest
  | text => some text

/-- Whether a text starts like a time. -/
def startsTime : List Char → Bool
  | a :: b :: ':' :: _ => a.isDigit && b.isDigit
  | _ => false

/-- Whether a text starts like a date. -/
def startsDate : List Char → Bool
  | a :: b :: c :: d :: '-' :: _ => a.isDigit && b.isDigit && c.isDigit && d.isDigit
  | _ => false

/-- The rest of a text after a date and the time that may follow it. -/
def afterDate (text : List Char) : Option (List Char) := do
  let year := digitsValue (text.take 4)
  let (month, text) ← scanTwo 1 12 (text.drop 5)
  let (_, text) ← scanTwo 1 (daysIn year month) (← expect '-' text)
  match text with
  | c :: rest =>
    if (c = 'T' || c = 't' || c = ' ') && startsTime rest then
      afterOffset (← afterTime rest)
    else return text
  | [] => return []

/-! ## Numbers -/

/-- Digits after the first; an underscore may stand between two of them. -/
def scanMoreDigits (isDigit : Char → Bool) : Scan (List Char)
  | '_' :: c :: rest =>
    if isDigit c then withChar c (scanMoreDigits isDigit rest) else none
  | ['_'] => none
  | c :: rest => if isDigit c then withChar c (scanMoreDigits isDigit rest) else some ([], c :: rest)
  | [] => some ([], [])

/-- Digits, of which there must be one. -/
def scanDigits (isDigit : Char → Bool) : Scan (List Char)
  | c :: rest => if isDigit c then withChar c (scanMoreDigits isDigit rest) else none
  | [] => none

/-- The sign of a number, which is positive if there is none. -/
def scanSign : List Char → Bool × List Char
  | '-' :: rest => (true, rest)
  | '+' :: rest => (false, rest)
  | text => (false, text)

/-- The whole part of a number: zero, or digits that do not start with zero. -/
def scanWhole : Scan (List Char)
  | '0' :: rest => some (['0'], rest)
  | text => scanDigits Char.isDigit text

/-- The exponent of a float behind its mark. -/
def scanExponent : Scan Int := fun text => do
  let (negative, text) := scanSign text
  let (digits, text) ← scanDigits Char.isDigit text
  let size : Int := digitsValue digits
  return (if negative then -size else size, text)

/-- An integer of 64 bits. -/
def integer? (n : Int) : Option Value :=
  if -9223372036854775808 ≤ n ∧ n < 9223372036854775808 then some (.integer n) else none

/-- The float with the given digits.  Beyond the greatest number there is minus
infinity only. -/
def float? (negative : Bool) (whole fraction : List Char) (exponent : Int) : Option Value :=
  match Binary64.ofDecimal? negative
      ⟨digitsValue (whole ++ fraction), exponent - fraction.length⟩ with
  | some x => some (.float (some x))
  | none => if negative then some (.float none) else none

/-- An integer or a float in decimal digits, or a signed infinity or `nan`. -/
def scanDecimal : Scan Value := fun text =>
  match scanSign text with
  | (_, 'i' :: 'n' :: 'f' :: rest) => some (.float none, rest)
  | (_, 'n' :: 'a' :: 'n' :: rest) => some (.float none, rest)
  | (negative, text) => do
    let (whole, text) ← scanWhole text
    match text with
    | '.' :: rest =>
      let (fraction, rest) ← scanDigits Char.isDigit rest
      match rest with
      | 'e' :: rest | 'E' :: rest =>
        let (exponent, rest) ← scanExponent rest
        return (← float? negative whole fraction exponent, rest)
      | rest => return (← float? negative whole fraction 0, rest)
    | 'e' :: rest | 'E' :: rest =>
      let (exponent, rest) ← scanExponent rest
      return (← float? negative whole [] exponent, rest)
    | rest =>
      let size : Int := digitsValue whole
      return (← integer? (if negative then -size else size), rest)

/-- An integer in digits of another base, behind its mark. -/
def scanRadix (base : Nat) : Scan Value := fun text => do
  let isDigit := fun c => (hexDigit? c).any (· < base)
  let (digits, text) ← scanDigits isDigit text
  let size := digits.foldl (fun n c => n * base + (hexDigit? c).getD 0) 0
  return (← integer? size, text)

/-- An integer, a float, a date or a time. -/
def scanNumber : Scan Value := fun text =>
  match text with
  | '0' :: 'x' :: rest => scanRadix 16 rest
  | '0' :: 'o' :: rest => scanRadix 8 rest
  | '0' :: 'b' :: rest => scanRadix 2 rest
  | _ =>
    if startsDate text then (afterDate text).map fun rest => (.dateTime, rest)
    else if startsTime text then (afterTime text).map fun rest => (.dateTime, rest)
    else scanDecimal text

/-- A truth value, `inf` or `nan`. -/
def scanKeyword : Scan Value
  | 't' :: 'r' :: 'u' :: 'e' :: rest => some (.boolean true, rest)
  | 'f' :: 'a' :: 'l' :: 's' :: 'e' :: rest => some (.boolean false, rest)
  | 'i' :: 'n' :: 'f' :: rest => some (.float none, rest)
  | 'n' :: 'a' :: 'n' :: rest => some (.float none, rest)
  | _ => none

end SceneLogic.Toml

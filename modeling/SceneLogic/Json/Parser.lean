import SceneLogic.Json.Document

/-!
# Reading JSON text

The reader checks the whole grammar and keeps going over fragments that denote
nothing, which it records as unreadable.  A text that does not follow the grammar
has no document.

Blanks are the space, the line feed, the carriage return and the tab; no other
white space counts.  Brackets may nest 127 deep; the content of deeper ones is
checked and unreadable.

The mutually recursive readers carry a bound on the calls still allowed.  Of three
calls in a row at least one follows a character of its own, so three times the
length of the text is never used up.

## Main definitions

* `Document.parse?` — the document of a text.
* `scanString`, `scanNumeral` — the two kinds of token with a grammar of their own.
-/

namespace SceneLogic.Json

/-- The blanks of the grammar. -/
def isBlank (c : Char) : Bool := c = ' ' || c = '\n' || c = '\t' || c = '\r'

/-- The text from its first character that is no blank. -/
def skipBlanks (text : List Char) : List Char := text.dropWhile isBlank

/-- The number of open brackets up to which a container is readable. -/
def nestingLimit : Nat := 127

/-! ## Strings -/

/-- A piece of a string literal: a character, or a 16-bit code written in digits. -/
inductive StringPiece where
  | char (c : Char)
  | code (unit : Nat)
deriving DecidableEq, Repr

/-- The character behind a backslash, other than a code. -/
def escapedChar? (c : Char) : Option Char :=
  if c = '"' || c = '\\' || c = '/' then some c
  else if c = 'b' then some '\x08'
  else if c = 'f' then some '\x0c'
  else if c = 'n' then some '\n'
  else if c = 'r' then some '\r'
  else if c = 't' then some '\t'
  else none

/-- The pieces of a string literal after its opening quote, and the text after its
closing one. -/
def scanString : List Char → Option (List StringPiece × List Char)
  | [] => none
  | '"' :: rest => some ([], rest)
  | '\\' :: 'u' :: a :: b :: c :: d :: rest => do
    let a ← hexDigit? a
    let b ← hexDigit? b
    let c ← hexDigit? c
    let d ← hexDigit? d
    let (pieces, rest) ← scanString rest
    return (.code (((a * 16 + b) * 16 + c) * 16 + d) :: pieces, rest)
  | '\\' :: c :: rest => do
    let c ← escapedChar? c
    let (pieces, rest) ← scanString rest
    return (.char c :: pieces, rest)
  | c :: rest =>
    if c.toNat < 0x20 then none
    else do
      let (pieces, rest) ← scanString rest
      return (.char c :: pieces, rest)

/-- Whether a code is the first half of a surrogate pair. -/
def isHighSurrogate (unit : Nat) : Bool := 0xD800 ≤ unit && unit < 0xDC00

/-- Whether a code is the second half of a surrogate pair. -/
def isLowSurrogate (unit : Nat) : Bool := 0xDC00 ≤ unit && unit < 0xE000

/-- The characters of the pieces.  A surrogate pair is one character; half a pair
is none. -/
def joinPieces : List StringPiece → Option (List Char)
  | [] => some []
  | .char c :: pieces => (joinPieces pieces).map (c :: ·)
  | .code unit :: pieces =>
    if isHighSurrogate unit then
      match pieces with
      | .code low :: pieces =>
        if isLowSurrogate low then
          (joinPieces pieces).map
            (Char.ofNat (0x10000 + (unit - 0xD800) * 0x400 + (low - 0xDC00)) :: ·)
        else none
      | _ => none
    else if isLowSurrogate unit then none
    else (joinPieces pieces).map (Char.ofNat unit :: ·)

/-- The string that pieces denote. -/
def pieceString? (pieces : List StringPiece) : Option String :=
  (joinPieces pieces).map String.ofList

/-! ## Numbers -/

/-- The digits at the front of a text, of which there must be one, and the rest. -/
def scanDigits (text : List Char) : Option (List Char × List Char) :=
  let digits := text.takeWhile Char.isDigit
  if digits = [] then none else some (digits, text.dropWhile Char.isDigit)

/-- The whole part of a number: zero, or digits that do not start with zero. -/
def scanWhole : List Char → Option (List Char × List Char)
  | '0' :: rest => some (['0'], rest)
  | text => scanDigits text

/-- The fraction of a number, if there is a point. -/
def scanFraction : List Char → Option (Option (List Char) × List Char)
  | '.' :: rest => (scanDigits rest).map fun (digits, rest) => (some digits, rest)
  | text => some (none, text)

/-- The digits of an exponent behind its sign. -/
def scanSignedExponent : List Char → Option (Int × List Char)
  | '-' :: rest => (scanDigits rest).map fun (digits, rest) => (-(digitsValue digits : Int), rest)
  | '+' :: rest => (scanDigits rest).map fun (digits, rest) => ((digitsValue digits : Int), rest)
  | rest => (scanDigits rest).map fun (digits, rest) => ((digitsValue digits : Int), rest)

/-- The exponent of a number, if there is its mark. -/
def scanExponent : List Char → Option (Option Int × List Char)
  | 'e' :: rest | 'E' :: rest =>
    (scanSignedExponent rest).map fun (exponent, rest) => (some exponent, rest)
  | text => some (none, text)

/-- The unsigned part of a number. -/
def scanUnsigned (negative : Bool) (text : List Char) : Option (Numeral × List Char) := do
  let (whole, rest) ← scanWhole text
  let (fraction, rest) ← scanFraction rest
  let (exponent, rest) ← scanExponent rest
  return (⟨negative, whole, fraction, exponent⟩, rest)

/-- A number and the text after it. -/
def scanNumeral : List Char → Option (Numeral × List Char)
  | '-' :: rest => scanUnsigned true rest
  | text => scanUnsigned false text

/-! ## Documents -/

namespace Document

/-- A string literal as a document. -/
def ofPieces (pieces : List StringPiece) : Document :=
  ((pieceString? pieces).map .string).getD .unreadable

/-- A written number as a document. -/
def ofNumeral (numeral : Numeral) : Document :=
  (numeral.number?.map .number).getD .unreadable

/-- An array inside `level` open brackets, its own included. -/
def ofItems (level : Nat) (items : List Document) : Document :=
  if level ≤ nestingLimit then .array items else .unreadable

/-- A member, if its key denotes a string. -/
def keyed? (member : Option String × Document) : Option (String × Document) :=
  member.1.map fun key => (key, member.2)

/-- An object inside `level` open brackets, its own included; a key that denotes
no string spoils it. -/
def ofMembers (level : Nat) (members : List (Option String × Document)) : Document :=
  if level ≤ nestingLimit then ((members.mapM keyed?).map .object).getD .unreadable
  else .unreadable

mutual

/-- The document at the front of a text, inside `level` open brackets, and the
text after it. -/
def read (calls level : Nat) (text : List Char) : Option (Document × List Char) :=
  match calls with
  | 0 => none
  | calls + 1 =>
    match skipBlanks text with
    | 'n' :: 'u' :: 'l' :: 'l' :: rest => some (.null, rest)
    | 't' :: 'r' :: 'u' :: 'e' :: rest => some (.bool true, rest)
    | 'f' :: 'a' :: 'l' :: 's' :: 'e' :: rest => some (.bool false, rest)
    | '"' :: rest => (scanString rest).map fun (pieces, rest) => (ofPieces pieces, rest)
    | '[' :: rest =>
      (readItems calls (level + 1) rest).map fun (items, rest) => (ofItems (level + 1) items, rest)
    | '{' :: rest =>
      (readMembers calls (level + 1) rest).map fun (members, rest) =>
        (ofMembers (level + 1) members, rest)
    | text => (scanNumeral text).map fun (numeral, rest) => (ofNumeral numeral, rest)

/-- The items of an array after its opening bracket, and the text after the
closing one. -/
def readItems (calls level : Nat) (text : List Char) : Option (List Document × List Char) :=
  match calls with
  | 0 => none
  | calls + 1 =>
    match skipBlanks text with
    | ']' :: rest => some ([], rest)
    | text => do
      let (item, rest) ← read calls level text
      let (items, rest) ← readMoreItems calls level rest
      return (item :: items, rest)

/-- The items of an array after one of them. -/
def readMoreItems (calls level : Nat) (text : List Char) : Option (List Document × List Char) :=
  match calls with
  | 0 => none
  | calls + 1 =>
    match skipBlanks text with
    | ']' :: rest => some ([], rest)
    | ',' :: rest => do
      let (item, rest) ← read calls level rest
      let (items, rest) ← readMoreItems calls level rest
      return (item :: items, rest)
    | _ => none

/-- The members of an object after its opening bracket, and the text after the
closing one. -/
def readMembers (calls level : Nat) (text : List Char) :
    Option (List (Option String × Document) × List Char) :=
  match calls with
  | 0 => none
  | calls + 1 =>
    match skipBlanks text with
    | '}' :: rest => some ([], rest)
    | text => do
      let (member, rest) ← readMember calls level text
      let (members, rest) ← readMoreMembers calls level rest
      return (member :: members, rest)

/-- The members of an object after one of them. -/
def readMoreMembers (calls level : Nat) (text : List Char) :
    Option (List (Option String × Document) × List Char) :=
  match calls with
  | 0 => none
  | calls + 1 =>
    match skipBlanks text with
    | '}' :: rest => some ([], rest)
    | ',' :: rest => do
      let (member, rest) ← readMember calls level rest
      let (members, rest) ← readMoreMembers calls level rest
      return (member :: members, rest)
    | _ => none

/-- A key, a colon and a document. -/
def readMember (calls level : Nat) (text : List Char) :
    Option ((Option String × Document) × List Char) :=
  match calls with
  | 0 => none
  | calls + 1 =>
    match skipBlanks text with
    | '"' :: rest => do
      let (pieces, rest) ← scanString rest
      match skipBlanks rest with
      | ':' :: rest => do
        let (item, rest) ← read calls level rest
        return ((pieceString? pieces, item), rest)
      | _ => none
    | _ => none

end

/-- The document of a text, which may have blanks around it and nothing else. -/
def parseChars? (text : List Char) : Option Document := do
  let (document, rest) ← read (3 * text.length + 3) 0 text
  if skipBlanks rest = [] then some document else none

/-- The document of a text; none if the text does not follow the grammar. -/
def parse? (text : String) : Option Document := parseChars? text.toList

end Document

/-- The value of a text; none if it does not follow the grammar or if anything in
it is unreadable. -/
def Value.parse? (text : String) : Option Value := do
  Value.ofDocument? (← Document.parse? text)

end SceneLogic.Json

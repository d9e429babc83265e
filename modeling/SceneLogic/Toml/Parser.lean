import SceneLogic.Toml.Scalar
import SceneLogic.Toml.Table

/-!
# Reading TOML text

A document consists of lines: a header, a key with its value, a comment or nothing.
Arrays may run over several lines, inline tables may not.  Values nest less than 80
deep, and a dotted key has fewer than 80 parts.

The readers of lists carry a bound on the number of items, for which the length of
the text serves: every item takes a character.

## Main definitions

* `scanValue` — a value, given how deep values may still nest.
* `Document.parse?` — the members of the table that a text denotes.
-/

namespace SceneLogic.Toml

/-- The depth that values, and the length that dotted keys, have to stay below. -/
def nestingLimit : Nat := 80

/-- The text without the blanks at its front. -/
def skipBlanks (text : List Char) : List Char := text.dropWhile isBlank

/-- The text after blanks, line breaks and comments.  A comment ends with its line;
`comment` says that one is going on. -/
def skipLines (comment : Bool) : List Char → Option (List Char)
  | [] => if comment then none else some []
  | '\n' :: rest => skipLines false rest
  | '\r' :: '\n' :: rest => skipLines false rest
  | c :: rest =>
    if comment then if isPlain c then skipLines true rest else none
    else if isBlank c then skipLines false rest
    else if c = '#' then skipLines true rest
    else some (c :: rest)

/-- The text after the end of a line, before which blanks and a comment may stand. -/
def afterLine (text : List Char) : Option (List Char) :=
  let text := match skipBlanks text with
    | '#' :: rest => rest.dropWhile isPlain
    | text => text
  match text with
  | [] => some []
  | '\n' :: rest => some rest
  | '\r' :: '\n' :: rest => some rest
  | _ => none

/-! ## Keys -/

/-- A character of a key without quotes. -/
def isKeyChar (c : Char) : Bool := c.isAlphanum || c = '-' || c = '_'

/-- One part of a key. -/
def scanKeyPart : Scan String
  | '"' :: rest => (scanBasic rest).map fun (chars, rest) => (String.ofList chars, rest)
  | '\'' :: rest => (scanLiteral rest).map fun (chars, rest) => (String.ofList chars, rest)
  | text =>
    let chars := text.takeWhile isKeyChar
    if chars = [] then none else some (String.ofList chars, text.dropWhile isKeyChar)

/-- The parts of a dotted key, with blanks around each. -/
def scanKeyParts (bound : Nat) : Scan (List String) := fun text =>
  match bound with
  | 0 => none
  | bound + 1 => do
    let (part, text) ← scanKeyPart (skipBlanks text)
    match skipBlanks text with
    | '.' :: rest =>
      let (parts, rest) ← scanKeyParts bound rest
      return (part :: parts, rest)
    | rest => return ([part], rest)

/-- A key: the path to its table, and its last part. -/
def scanKey : Scan (List String × String) := fun text => do
  let (parts, rest) ← scanKeyParts (text.length + 1) text
  if parts.length < nestingLimit then
    return ((parts.dropLast, ← parts.getLast?), rest)
  else none

/-! ## Values -/

/-- The items of an array after its opening bracket or a comma. -/
def scanItems (value : Scan Value) (bound : Nat) : Scan (List Value) := fun text =>
  match bound with
  | 0 => none
  | bound + 1 => do
    match ← skipLines false text with
    | ']' :: rest => return ([], rest)
    | text =>
      let (item, text) ← value text
      match ← skipLines false text with
      | ',' :: rest =>
        let (items, rest) ← scanItems value bound rest
        return (item :: items, rest)
      | ']' :: rest => return ([item], rest)
      | _ => none

/-- A key, an equals sign and a value, with blanks around each. -/
def scanKeyValue (value : Scan Value) : Scan ((List String × String) × Value) := fun text => do
  let (key, text) ← scanKey text
  let text ← expect '=' text
  let (value, text) ← value (skipBlanks text)
  return ((key, value), text)

/-- The members of an inline table after its opening brace or a comma, added to those
before. -/
def scanMembers (value : Scan Value) (bound : Nat) (members : Entry.Members) :
    Scan Entry.Members := fun text =>
  match bound with
  | 0 => none
  | bound + 1 => do
    let (((path, key), item), text) ← scanKeyValue value text
    let members ← Entry.insertValue path key item members
    match skipBlanks text with
    | ',' :: rest => scanMembers value bound members rest
    | '\x7d' :: rest => return (members, rest)
    | _ => none

/-- An inline table after its opening brace. -/
def scanInline (value : Scan Value) : Scan Value := fun text =>
  match skipBlanks text with
  | '\x7d' :: rest => some (.table [], rest)
  | text => do
    let (members, rest) ← scanMembers value (text.length + 1) [] text
    return (.table (Entry.memberValues members), rest)

/-- A value in which arrays and inline tables nest less than `depth` deep. -/
def scanValue (depth : Nat) : Scan Value := fun text =>
  match text with
  | '"' :: _ | '\'' :: _ => (scanText text).map fun (s, rest) => (.string s, rest)
  | '[' :: rest =>
    match depth with
    | 0 | 1 => none
    | depth + 2 =>
      (scanItems (scanValue (depth + 1)) (rest.length + 1) rest).map fun (items, rest) =>
        (.array items, rest)
  | '\x7b' :: rest =>
    match depth with
    | 0 | 1 => none
    | depth + 2 => scanInline (scanValue (depth + 1)) rest
  | c :: _ =>
    if c.isDigit || c = '+' || c = '-' then scanNumber text else scanKeyword text
  | [] => none

/-! ## Documents -/

namespace Document

/-- What is read so far: the members of the whole table, and the last header. -/
structure Progress where
  members : Entry.Members
  header : List String

/-- Read one line and add what it says. -/
def readLine (progress : Progress) (text : List Char) : Option (Progress × List Char) :=
  match skipBlanks text with
  | '[' :: '[' :: rest => do
    let ((path, key), rest) ← scanKey rest
    let rest ← afterLine (← expect ']' (← expect ']' rest))
    return (⟨← Entry.openRow path key progress.members, path ++ [key]⟩, rest)
  | '[' :: rest => do
    let ((path, key), rest) ← scanKey rest
    let rest ← afterLine (← expect ']' rest)
    return (⟨← Entry.openTable path key progress.members, path ++ [key]⟩, rest)
  | text =>
    match afterLine text with
    | some rest => some (progress, rest)
    | none => do
      let (((path, key), value), rest) ← scanKeyValue (scanValue nestingLimit) text
      let rest ← afterLine rest
      return ({ progress with
        members := ← Entry.insertBelow progress.header path key value progress.members }, rest)

/-- Read lines up to the end of the text. -/
def readLines (bound : Nat) (progress : Progress) (text : List Char) : Option Entry.Members :=
  match bound, text with
  | _, [] => some progress.members
  | 0, _ => none
  | bound + 1, text => do
    let (progress, rest) ← readLine progress text
    readLines bound progress rest

/-- The members of the table that a text denotes.  A mark of the byte order at the
front of the text is no part of it. -/
def parse? (text : String) : Option (List (String × Value)) :=
  let text := match text.toList with
    | '\uFEFF' :: rest => rest
    | text => text
  (readLines (text.length + 1) ⟨[], []⟩ text).map Entry.memberValues

end Document

end SceneLogic.Toml

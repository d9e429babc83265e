import SceneLogic.Json.Document

/-!
# Writing JSON text

A document is written either compactly, without any blank, or with every item on
a line of its own, indented by two spaces for each open bracket.  Empty arrays
and objects stay on one line.  Of a string only the quote, the backslash and the
control characters are escaped.

## Main definitions

* `Spacing` — compact or indented.
* `Document.write` — the text of a document as characters.
* `Document.compact`, `Document.pretty` — the two texts.
-/

namespace SceneLogic.Json

/-- Where a text has blanks. -/
inductive Spacing where
  | compact
  | indented
deriving DecidableEq

namespace Spacing

/-- What stands before an item inside `level` open brackets. -/
def lineBreak (spacing : Spacing) (level : Nat) : List Char :=
  match spacing with
  | .compact => []
  | .indented => '\n' :: List.replicate (2 * level) ' '

/-- What stands between a key and its value. -/
def colon : Spacing → List Char
  | .compact => [':']
  | .indented => [':', ' ']

end Spacing

/-- A character inside a string literal.  Control characters without an escape of
their own are written by their code, in four lowercase hexadecimal digits. -/
def escapeChar (c : Char) : List Char :=
  if c = '"' then ['\\', '"']
  else if c = '\\' then ['\\', '\\']
  else if c = '\x08' then ['\\', 'b']
  else if c = '\x0c' then ['\\', 'f']
  else if c = '\n' then ['\\', 'n']
  else if c = '\r' then ['\\', 'r']
  else if c = '\t' then ['\\', 't']
  else if c.toNat < 0x20 then
    ['\\', 'u', '0', '0', Nat.digitChar (c.toNat / 16), Nat.digitChar (c.toNat % 16)]
  else [c]

/-- The literal of a string. -/
def stringText (s : String) : List Char :=
  '"' :: s.toList.flatMap escapeChar ++ ['"']

namespace Document

mutual

/-- The text of a document inside `level` open brackets.  An unreadable fragment
has no text of its own; nothing that this library builds holds one. -/
def write (spacing : Spacing) (level : Nat) : Document → List Char
  | .null | .unreadable => ['n', 'u', 'l', 'l']
  | .bool true => ['t', 'r', 'u', 'e']
  | .bool false => ['f', 'a', 'l', 's', 'e']
  | .number n => n.text
  | .string s => stringText s
  | .array [] => ['[', ']']
  | .array (item :: items) =>
    '[' :: spacing.lineBreak (level + 1) ++ item.write spacing (level + 1) ++
      writeItems spacing (level + 1) items ++ spacing.lineBreak level ++ [']']
  | .object [] => ['{', '}']
  | .object ((key, item) :: members) =>
    '{' :: spacing.lineBreak (level + 1) ++ stringText key ++ spacing.colon ++
      item.write spacing (level + 1) ++ writeMembers spacing (level + 1) members ++
      spacing.lineBreak level ++ ['}']

/-- The text of the items after the first. -/
def writeItems (spacing : Spacing) (level : Nat) : List Document → List Char
  | [] => []
  | item :: items =>
    ',' :: spacing.lineBreak level ++ item.write spacing level ++ writeItems spacing level items

/-- The text of the members after the first. -/
def writeMembers (spacing : Spacing) (level : Nat) : List (String × Document) → List Char
  | [] => []
  | (key, item) :: members =>
    ',' :: spacing.lineBreak level ++ stringText key ++ spacing.colon ++
      item.write spacing level ++ writeMembers spacing level members

end

/-- The text without blanks. -/
def compact (document : Document) : String := String.ofList (document.write .compact 0)

/-- The indented text. -/
def pretty (document : Document) : String := String.ofList (document.write .indented 0)

end Document

end SceneLogic.Json

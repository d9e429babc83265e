/-!
# Symbols of functions

A symbol is a name made of ASCII letters, digits and underscores only.  ASCII
letters and digits stand for themselves; every other character is written as an
underscore and the six hexadecimal digits of its code point.  All escapes have one
width, so a mangled name never holds two underscores in a row and never ends with
one, and two of them stay apart when they are joined by two underscores.

## Main definitions

* `mangleName` — a name as part of a symbol.
* `functionSymbol` — the symbol of a function within a scope.
-/

namespace SceneLogic

/-- The last `width` hexadecimal digits of a number. -/
def hexDigits (width n : Nat) : List Char :=
  match width with
  | 0 => []
  | width + 1 => hexDigits width (n / 16) ++ [Nat.digitChar (n % 16)]

/-- A character of a name as part of a symbol. -/
def mangleChar (c : Char) : List Char :=
  if c.isAlphanum then [c] else '_' :: hexDigits 6 c.toNat

/-- A name as part of a symbol. -/
def mangleName (name : String) : String := String.ofList (name.toList.flatMap mangleChar)

/-- The symbol of a function, from the names of its scope and its own. -/
def functionSymbol (scope name : String) : String :=
  "evfn__" ++ mangleName scope ++ "__" ++ mangleName name

end SceneLogic

import SceneLogic.Json.Parser
import SceneLogic.Json.Printer

/-!
# Written strings are read back

Every character of a string literal is written either as itself, behind a backslash, or by
its code, and is one piece of the literal again when that is read.

## Main statements

* `scanString_flatMap` — the pieces of a literal.
* `pieceString?_map` — the pieces denote the string.
-/

namespace SceneLogic.Json

/-- The piece of a literal as which a character is written. -/
def escapePiece (c : Char) : StringPiece :=
  if c.toNat < 0x20 ∧ c ≠ '\x08' ∧ c ≠ '\x0c' ∧ c ≠ '\n' ∧ c ≠ '\r' ∧ c ≠ '\t' then
    .code c.toNat
  else .char c

theorem hexDigit?_digitChar : ∀ digit < 16, hexDigit? (Nat.digitChar digit) = some digit := by
  decide

theorem scanString_escaped {c denoted : Char} (hescape : escapedChar? c = some denoted)
    (rest : List Char) :
    scanString ('\\' :: c :: rest) =
      (scanString rest).map fun (pieces, rest) => (.char denoted :: pieces, rest) := by
  have hcode : ∀ a b c' d rest', c = 'u' → rest = a :: b :: c' :: d :: rest' → False := by
    rintro _ _ _ _ _ rfl
    simp [escapedChar?] at hescape
  rw [scanString.eq_4 _ _ hcode, hescape, Option.map_eq_bind]
  rfl

theorem scanString_coded {code : Nat} (hcode : code < 0x20) (rest : List Char) :
    scanString ('\\' :: 'u' :: '0' :: '0' :: Nat.digitChar (code / 16) ::
        Nat.digitChar (code % 16) :: rest) =
      (scanString rest).map fun (pieces, rest) => (.code code :: pieces, rest) := by
  have hzero : hexDigit? '0' = some 0 := by decide
  have hvalue : ((0 * 16 + 0) * 16 + code / 16) * 16 + code % 16 = code := by omega
  simp only [scanString, hzero, hexDigit?_digitChar (code / 16) (by omega),
    hexDigit?_digitChar (code % 16) (by omega), bind, Option.bind_some, hvalue,
    Option.map_eq_bind]
  rfl

theorem scanString_plain {c : Char} (hquote : c ≠ '"') (hbackslash : c ≠ '\\')
    (hcontrol : ¬ c.toNat < 0x20) (rest : List Char) :
    scanString (c :: rest) =
      (scanString rest).map fun (pieces, rest) => (.char c :: pieces, rest) := by
  rw [scanString.eq_5 _ _ hquote (fun _ _ _ _ _ h => absurd h hbackslash)
    (fun _ _ h => absurd h hbackslash), if_neg hcontrol, Option.map_eq_bind]
  rfl

/-- A character is read as the piece as which it is written. -/
theorem scanString_escapeChar (c : Char) (rest : List Char) :
    scanString (escapeChar c ++ rest) =
      (scanString rest).map fun (pieces, rest) => (escapePiece c :: pieces, rest) := by
  unfold escapeChar
  repeat' split
  case isFalse.isFalse.isFalse.isFalse.isFalse.isFalse.isFalse.isTrue hcontrol =>
    have hpiece : escapePiece c = .code c.toNat := by simp_all [escapePiece]
    rw [hpiece]
    exact scanString_coded hcontrol rest
  case isFalse.isFalse.isFalse.isFalse.isFalse.isFalse.isFalse.isFalse hplain =>
    have hpiece : escapePiece c = .char c := by simp_all [escapePiece]
    rw [hpiece]
    exact scanString_plain ‹_› ‹_› hplain rest
  -- The characters with an escape of their own.
  all_goals
    subst c
    exact scanString_escaped (by decide) rest

/-- **A literal is read piece by piece.** -/
theorem scanString_flatMap (chars rest : List Char) :
    scanString (chars.flatMap escapeChar ++ '"' :: rest) = some (chars.map escapePiece, rest) := by
  induction chars with
  | nil => rfl
  | cons c chars ih =>
    rw [List.flatMap_cons, List.append_assoc, scanString_escapeChar, ih]
    rfl

theorem joinPieces_map (chars : List Char) : joinPieces (chars.map escapePiece) = some chars := by
  induction chars with
  | nil => rfl
  | cons c chars ih =>
    rw [List.map_cons, escapePiece]
    split
    next hcontrol =>
      have hhigh : isHighSurrogate c.toNat = false := by
        simp [isHighSurrogate]
        omega
      have hlow : isLowSurrogate c.toNat = false := by
        simp [isLowSurrogate]
        omega
      unfold joinPieces
      simp [hhigh, hlow, ih]
    next => simp [joinPieces, ih]

/-- **The pieces of a literal denote the string.** -/
theorem pieceString?_map (s : String) :
    pieceString? (s.toList.map escapePiece) = some s := by
  simp [pieceString?, joinPieces_map]

end SceneLogic.Json

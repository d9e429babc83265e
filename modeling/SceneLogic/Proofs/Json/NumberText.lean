import SceneLogic.Json.Parser
import SceneLogic.Proofs.Number.Rounding

/-!
# Written numbers are read back

The text of a number is that of a numeral, and the numeral denotes the number.  A numeral
is read from its text wherever that ends: before the end of the text, or before a
character that no numeral goes on with.

## Main definitions

* `Numeral.text` — the text of a numeral; `Numeral.WellFormed` — its parts are digits.
* `Delimited` — a numeral before the text ends there.
* `decimalNumeral`, `Number.numeral` — the numeral that is written for a number.

## Main statements

* `Numeral.WellFormed.scanNumeral_text` — a numeral is read from its text.
* `Number.scanNumeral_text`, `Number.number?_numeral` — a number is read back.
-/

namespace SceneLogic.Json

/-! ## Digits -/

theorem isDigit_of_mem_natText {n : Nat} {c : Char} (hmem : c ∈ natText n) : c.isDigit = true :=
  Nat.isDigit_of_mem_toDigits (by decide) (by decide) hmem

theorem natText_ne_nil (n : Nat) : natText n ≠ [] := Nat.toDigits_ne_nil

@[simp] theorem digitsValue_natText (n : Nat) : digitsValue (natText n) = n :=
  Nat.ofDigitChars_ten_toDigits

/-- Only zero is written with a zero in front. -/
theorem head?_natText {n : Nat} (hn : 0 < n) : (natText n).head? ≠ some '0' := by
  induction n using Nat.base_induction 10 (by decide) with
  | single m hm => simpa [natText, Nat.toDigits_of_lt_base hm] using Nat.pos_iff_ne_zero.1 hn
  | digit m k hk hm ih =>
    have hdigits : natText (10 * m + k) = natText m ++ Nat.toDigits 10 k :=
      (Nat.toDigits_append_toDigits (by decide) hm hk).symm
    rw [hdigits, List.head?_append_of_ne_nil _ (natText_ne_nil m)]
    exact ih hm

theorem digitsValue_replicate_append (n : Nat) (digits : List Char) :
    digitsValue (List.replicate n '0' ++ digits) = digitsValue digits := by
  simp [digitsValue, Nat.ofDigitChars_append]

theorem digitsValue_append_replicate (digits : List Char) (n : Nat) :
    digitsValue (digits ++ List.replicate n '0') = digitsValue digits * 10 ^ n := by
  simp [digitsValue, Nat.ofDigitChars_append, Nat.mul_comm]

/-! ## Numerals -/

/-- A numeral before the text ends there. -/
def Delimited (rest : List Char) : Prop :=
  ∀ c ∈ rest.head?, c.isDigit = false ∧ c ≠ '.' ∧ c ≠ 'e' ∧ c ≠ 'E'

/-- The digits of a part of a numeral. -/
structure IsDigits (digits : List Char) : Prop where
  ne_nil : digits ≠ []
  isDigit : ∀ c ∈ digits, c.isDigit = true

theorem isDigits_natText (n : Nat) : IsDigits (natText n) :=
  ⟨natText_ne_nil n, fun _ => isDigit_of_mem_natText⟩

theorem IsDigits.scanDigits_append {digits rest : List Char} (hdigits : IsDigits digits)
    (hrest : ∀ c ∈ rest.head?, c.isDigit = false) :
    scanDigits (digits ++ rest) = some (digits, rest) := by
  have htake : rest.takeWhile Char.isDigit = [] := by
    cases rest with
    | nil => rfl
    | cons c rest => simp [hrest c rfl]
  have hdrop : rest.dropWhile Char.isDigit = rest := by
    cases rest with
    | nil => rfl
    | cons c rest => simp [hrest c rfl]
  simp [scanDigits, List.takeWhile_append_of_pos hdigits.isDigit,
    List.dropWhile_append_of_pos hdigits.isDigit, htake, hdrop, hdigits.ne_nil]

namespace Numeral

/-- The text of an exponent, always with a sign. -/
def exponentText (exponent : Int) : List Char :=
  if 0 ≤ exponent then '+' :: natText exponent.natAbs else '-' :: natText exponent.natAbs

/-- The text of a numeral without its sign. -/
def unsignedText (numeral : Numeral) : List Char :=
  numeral.whole ++ (numeral.fraction.elim [] fun digits => '.' :: digits) ++
    numeral.exponent.elim [] fun exponent => 'e' :: exponentText exponent

/-- The text of a numeral. -/
def text (numeral : Numeral) : List Char :=
  if numeral.negative then '-' :: numeral.unsignedText else numeral.unsignedText

/-- The parts of a numeral are digits, and the whole part has no zero in front. -/
structure WellFormed (numeral : Numeral) : Prop where
  whole : IsDigits numeral.whole
  leading : numeral.whole = ['0'] ∨ numeral.whole.head? ≠ some '0'
  fraction : ∀ digits ∈ numeral.fraction, IsDigits digits

variable {numeral : Numeral} {rest : List Char}

theorem scanWhole_append {digits : List Char} (hdigits : IsDigits digits)
    (hleading : digits = ['0'] ∨ digits.head? ≠ some '0')
    (hrest : ∀ c ∈ rest.head?, c.isDigit = false) :
    scanWhole (digits ++ rest) = some (digits, rest) := by
  rcases hleading with rfl | hleading
  · rfl
  · unfold scanWhole
    split
    next heq =>
      refine absurd ?_ hleading
      rw [← List.head?_append_of_ne_nil _ hdigits.ne_nil, heq, List.head?_cons]
    next => exact hdigits.scanDigits_append hrest

theorem scanSignedExponent_exponentText (exponent : Int) (hrest : Delimited rest) :
    scanSignedExponent (exponentText exponent ++ rest) = some (exponent, rest) := by
  have hscan := (isDigits_natText exponent.natAbs).scanDigits_append fun c hc => (hrest c hc).1
  unfold exponentText
  split
  next hnonneg =>
    simp only [List.cons_append, scanSignedExponent, hscan, Option.map_some, digitsValue_natText]
    rw [Int.natAbs_of_nonneg hnonneg]
  next hneg =>
    simp only [List.cons_append, scanSignedExponent, hscan, Option.map_some, digitsValue_natText]
    rw [Int.ofNat_natAbs_of_nonpos (by omega), Int.neg_neg]

theorem scanExponent_append (exponent : Option Int) (hrest : Delimited rest) :
    scanExponent ((exponent.elim [] fun exponent => 'e' :: exponentText exponent) ++ rest) =
      some (exponent, rest) := by
  cases exponent with
  | none =>
    unfold scanExponent
    rw [Option.elim_none, List.nil_append]
    split
    · exact absurd rfl (hrest 'e' rfl).2.2.1
    · exact absurd rfl (hrest 'E' rfl).2.2.2
    · rfl
  | some exponent =>
    simp [scanExponent, scanSignedExponent_exponentText exponent hrest]

theorem scanFraction_append {fraction : Option (List Char)}
    (hfraction : ∀ digits ∈ fraction, IsDigits digits)
    (hrest : ∀ c ∈ rest.head?, c.isDigit = false ∧ c ≠ '.') :
    scanFraction ((fraction.elim [] fun digits => '.' :: digits) ++ rest) =
      some (fraction, rest) := by
  cases fraction with
  | none =>
    unfold scanFraction
    rw [Option.elim_none, List.nil_append]
    split
    · exact absurd rfl (hrest '.' rfl).2
    · rfl
  | some digits =>
    have hscan := (hfraction digits rfl).scanDigits_append fun c hc => (hrest c hc).1
    simp [scanFraction, hscan]

theorem WellFormed.scanUnsigned_unsignedText (hnumeral : numeral.WellFormed)
    (hrest : Delimited rest) :
    scanUnsigned numeral.negative (numeral.unsignedText ++ rest) = some (numeral, rest) := by
  have hexponent : ∀ c ∈ ((numeral.exponent.elim [] fun exponent => 'e' :: exponentText exponent) ++
      rest).head?, c.isDigit = false ∧ c ≠ '.' := by
    cases numeral.exponent with
    | none => exact fun c hc => ⟨(hrest c hc).1, (hrest c hc).2.1⟩
    | some exponent =>
      rintro c ⟨rfl⟩
      decide
  have hfraction : ∀ c ∈ ((numeral.fraction.elim [] fun digits => '.' :: digits) ++
      ((numeral.exponent.elim [] fun exponent => 'e' :: exponentText exponent) ++ rest)).head?,
      c.isDigit = false := by
    cases numeral.fraction with
    | none => exact fun c hc => (hexponent c hc).1
    | some digits =>
      rintro c ⟨rfl⟩
      decide
  simp only [scanUnsigned, unsignedText, List.append_assoc,
    scanWhole_append hnumeral.whole hnumeral.leading hfraction,
    scanFraction_append hnumeral.fraction hexponent, scanExponent_append numeral.exponent hrest,
    bind, Option.bind_some, pure]

/-- **A numeral is read from its text.** -/
theorem WellFormed.scanNumeral_text (hnumeral : numeral.WellFormed) (hrest : Delimited rest) :
    scanNumeral (numeral.text ++ rest) = some (numeral, rest) := by
  have hscan := hnumeral.scanUnsigned_unsignedText hrest
  unfold text
  cases hsign : numeral.negative with
  | true =>
    rw [hsign] at hscan
    exact hscan
  | false =>
    rw [hsign] at hscan
    simp only [Bool.false_eq_true, if_false]
    unfold scanNumeral
    split
    next heq =>
      -- A digit is no sign.
      obtain ⟨c, digits, hwhole⟩ := List.exists_cons_of_ne_nil hnumeral.whole.ne_nil
      have hc : c = '-' := by
        simp only [unsignedText, hwhole, List.cons_append, List.cons.injEq] at heq
        exact heq.1
      have hdigit := hnumeral.whole.isDigit c (by simp [hwhole])
      rw [hc] at hdigit
      cases hdigit
    next => exact hscan

end Numeral

/-! ## Decimals -/

/-- The place of the first digit of a decimal. -/
def leadingPlace (decimal : Decimal) : Int :=
  decimal.exponent + (natText decimal.digits).length - 1

/-- The numeral that is written for a decimal. -/
def decimalNumeral (negative : Bool) (decimal : Decimal) : Numeral :=
  let digits := natText decimal.digits
  let leading := leadingPlace decimal
  if -5 ≤ leading ∧ leading ≤ 15 then
    if 0 ≤ decimal.exponent then
      ⟨negative, digits ++ List.replicate decimal.exponent.toNat '0', some ['0'], none⟩
    else if 0 ≤ leading then
      ⟨negative, digits.take (leading + 1).toNat, some (digits.drop (leading + 1).toNat), none⟩
    else
      ⟨negative, ['0'], some (List.replicate (-leading - 1).toNat '0' ++ digits), none⟩
  else
    ⟨negative, digits.take 1, if digits.length = 1 then none else some (digits.drop 1),
      some leading⟩

theorem exponentText_eq (exponent : Int) :
    Numeral.exponentText exponent =
      if 0 ≤ exponent then '+' :: intText exponent else intText exponent := by
  unfold Numeral.exponentText intText
  split
  next hnonneg => rw [if_neg (by omega)]
  next hneg => rw [if_pos (by omega)]

theorem unsignedText_decimalNumeral (negative : Bool) (decimal : Decimal) :
    (decimalNumeral negative decimal).unsignedText = decimalText decimal := by
  unfold decimalNumeral decimalText leadingPlace
  dsimp only
  split
  next =>
    split
    next => simp [Numeral.unsignedText]
    next =>
      split
      next => simp [Numeral.unsignedText]
      next => simp [Numeral.unsignedText]
  next =>
    rw [Numeral.unsignedText, Option.elim_some, exponentText_eq]
    congr 1
    split <;> simp

theorem negative_decimalNumeral (negative : Bool) (decimal : Decimal) :
    (decimalNumeral negative decimal).negative = negative := by
  unfold decimalNumeral
  dsimp only
  repeat' split
  all_goals rfl

/-- What is written for a decimal is not the text of an integer. -/
theorem isSome_decimalNumeral (negative : Bool) (decimal : Decimal) :
    (decimalNumeral negative decimal).fraction.isSome = true ∨
      (decimalNumeral negative decimal).exponent.isSome = true := by
  unfold decimalNumeral
  dsimp only
  repeat' split
  all_goals simp

theorem length_natText_pos (n : Nat) : 0 < (natText n).length :=
  List.length_pos_of_ne_nil (natText_ne_nil n)

theorem isDigits_zero : IsDigits ['0'] := isDigits_natText 0

theorem IsDigits.of_forall_mem {digits part : List Char} (hdigits : IsDigits digits)
    (hne : part ≠ []) (hpart : ∀ c ∈ part, c ∈ digits ∨ c = '0') : IsDigits part := by
  refine ⟨hne, fun c hc => ?_⟩
  rcases hpart c hc with hc | rfl
  · exact hdigits.isDigit c hc
  · rfl

/-- Only zero itself is written with a zero in front, and then nothing stands behind it. -/
theorem wellFormed_decimalNumeral (negative : Bool) {decimal : Decimal}
    (hdecimal : decimal.digits ≠ 0 ∨ decimal.exponent = 0) :
    (decimalNumeral negative decimal).WellFormed := by
  have hdigits := isDigits_natText decimal.digits
  have hpos := length_natText_pos decimal.digits
  have hhead : decimal.digits ≠ 0 → (natText decimal.digits).head? ≠ some '0' :=
    fun hne => head?_natText (Nat.pos_of_ne_zero hne)
  unfold decimalNumeral
  dsimp only
  split
  next hplain =>
    split
    next hnonneg =>
      refine ⟨hdigits.of_forall_mem (by simp [hdigits.ne_nil]) ?_, ?_, ?_⟩
      · simp only [List.mem_append, List.mem_replicate]
        exact fun c hc => hc.imp_right And.right
      · by_cases hzero : decimal.digits = 0
        · left
          rw [hdecimal.resolve_left (not_not_intro hzero), hzero]
          rfl
        · right
          rw [List.head?_append_of_ne_nil _ hdigits.ne_nil]
          exact hhead hzero
      · rintro _ ⟨rfl⟩
        exact isDigits_zero
    next hneg =>
      have hne : decimal.digits ≠ 0 := by omega
      split
      next hlead =>
        have hsplit : 0 < (leadingPlace decimal + 1).toNat ∧
            (leadingPlace decimal + 1).toNat < (natText decimal.digits).length := by
          unfold leadingPlace at hlead ⊢
          omega
        refine ⟨hdigits.of_forall_mem ?_ fun c hc => .inl (List.mem_of_mem_take hc), ?_, ?_⟩
        · rw [← List.length_pos_iff, List.length_take]
          omega
        · right
          rw [List.head?_take, if_neg (by omega)]
          exact hhead hne
        · rintro _ ⟨rfl⟩
          refine hdigits.of_forall_mem ?_ fun c hc => .inl (List.mem_of_mem_drop hc)
          rw [← List.length_pos_iff, List.length_drop]
          omega
      next hbelow =>
        refine ⟨isDigits_zero, .inl rfl, ?_⟩
        rintro _ ⟨rfl⟩
        refine hdigits.of_forall_mem (by simp [hdigits.ne_nil]) ?_
        simp only [List.mem_append, List.mem_replicate]
        exact fun c hc => hc.symm.imp_right And.right
  next =>
    refine ⟨hdigits.of_forall_mem ?_ fun c hc => .inl (List.mem_of_mem_take hc), ?_, ?_⟩
    · rw [← List.length_pos_iff, List.length_take]
      omega
    · by_cases hzero : decimal.digits = 0
      · left
        rw [hzero]
        rfl
      · right
        rw [List.head?_take, if_neg (by decide)]
        exact hhead hzero
    · intro digits hmem
      split at hmem
      · cases hmem
      next hlong =>
        cases hmem
        refine hdigits.of_forall_mem ?_ fun c hc => .inl (List.mem_of_mem_drop hc)
        rw [← List.length_pos_iff, List.length_drop]
        omega

/-- The numeral is equal to the decimal; only where zeros had to be written behind its
digits is it another decimal. -/
theorem decimal_decimalNumeral (negative : Bool) (decimal : Decimal) :
    (decimalNumeral negative decimal).decimal = decimal ∨
      0 ≤ decimal.exponent ∧ decimal.exponent ≤ 15 ∧
        (decimalNumeral negative decimal).decimal =
          ⟨decimal.digits * 10 ^ (decimal.exponent.toNat + 1), -1⟩ := by
  obtain ⟨digits, exponent⟩ := decimal
  have hpos := length_natText_pos digits
  unfold decimalNumeral leadingPlace
  dsimp only
  split
  next hplain =>
    split
    next hnonneg =>
      right
      refine ⟨hnonneg, by omega, ?_⟩
      have htext : natText digits ++ List.replicate exponent.toNat '0' ++ ['0'] =
          natText digits ++ List.replicate (exponent.toNat + 1) '0' := by
        rw [List.replicate_succ', List.append_assoc]
      simp only [Numeral.decimal, Option.getD_some, Option.getD_none, htext,
        digitsValue_append_replicate, digitsValue_natText]
      rfl
    next hneg =>
      left
      split
      next =>
        simp only [Numeral.decimal, Option.getD_some, Option.getD_none, List.take_append_drop,
          digitsValue_natText, List.length_drop]
        congr 1
        omega
      next =>
        have htext : ['0'] ++ (List.replicate (-(exponent + (natText digits).length - 1) - 1).toNat '0' ++
            natText digits) = List.replicate 1 '0' ++ (List.replicate
              (-(exponent + (natText digits).length - 1) - 1).toNat '0' ++ natText digits) := rfl
        simp only [Numeral.decimal, Option.getD_some, Option.getD_none, htext,
          digitsValue_replicate_append, digitsValue_natText, List.length_append,
          List.length_replicate]
        congr 1
        omega
  next =>
    left
    split
    next hone =>
      have htake : (natText digits).take 1 = natText digits := List.take_of_length_le (by omega)
      simp only [Numeral.decimal, Option.getD_none, Option.getD_some, htake, List.append_nil,
        digitsValue_natText, List.length_nil]
      congr 1
      omega
    next =>
      simp only [Numeral.decimal, Option.getD_some, List.take_append_drop, digitsValue_natText,
        List.length_drop]
      congr 1
      omega

/-- The numeral that is written for a decimal reads as the decimal does. -/
theorem ofDecimal?_decimalNumeral (negative : Bool) (decimal : Decimal) :
    Binary64.ofDecimal? negative (decimalNumeral negative decimal).decimal =
      Binary64.ofDecimal? negative decimal := by
  rcases decimal_decimalNumeral negative decimal with heq | ⟨hnonneg, hsmall, heq⟩
  · rw [heq]
  · rw [heq]
    obtain ⟨digits, exponent⟩ := decimal
    dsimp only at hnonneg hsmall ⊢
    by_cases hzero : digits = 0
    · simp [Binary64.ofDecimal?, hzero]
    · have hscaled : digits * 10 ^ (exponent.toNat + 1) ≠ 0 := by simp [hzero]
      rw [Binary64.ofDecimal?, Binary64.ofDecimal?, if_neg hscaled, if_neg hzero,
        if_neg (by dsimp only; omega), if_neg (by dsimp only; omega),
        if_neg (by dsimp only; omega), if_neg (by dsimp only; omega)]
      apply Binary64.ofRatio?_congr _ (by simp) (by simp)
      have hneg : (-exponent).toNat = 0 := by omega
      simp only [hneg, pow_succ, Int.reduceNeg, Int.reduceToNat, Int.neg_neg, Nat.pow_eq]
      push_cast
      ring

/-! ## Numbers -/

namespace Number

/-- The numeral that is written for a number. -/
def numeral : Number → Numeral
  | .integer n _ => ⟨n < 0, natText n.natAbs, none, none⟩
  | .float x => decimalNumeral x.negative x.shortest

theorem text_numeral (n : Number) : n.numeral.text = n.text := by
  cases n with
  | integer n _ => by_cases hn : n < 0 <;> simp [numeral, Numeral.text, Numeral.unsignedText, text,
      intText, hn]
  | float x =>
    rw [numeral, Numeral.text, unsignedText_decimalNumeral, negative_decimalNumeral, text,
      floatText]

theorem wellFormed_numeral (n : Number) : n.numeral.WellFormed := by
  cases n with
  | integer n _ =>
    refine ⟨isDigits_natText _, ?_, by rintro _ ⟨⟩⟩
    by_cases hzero : n.natAbs = 0
    · left
      rw [numeral, hzero]
      rfl
    · exact .inr (head?_natText (Nat.pos_of_ne_zero hzero))
  | float x => exact wellFormed_decimalNumeral _ x.shortest_ne_zero

/-- **A number is read from its text.** -/
theorem scanNumeral_text (n : Number) {rest : List Char} (hrest : Delimited rest) :
    scanNumeral (n.text ++ rest) = some (n.numeral, rest) := by
  rw [← n.text_numeral]
  exact n.wellFormed_numeral.scanNumeral_text hrest

theorem integer?_of_fits {n : Int} (fits : FitsWord n) : integer? n = some (.integer n fits) :=
  dif_pos fits

/-- **The numeral of a number denotes it.** -/
theorem number?_numeral (n : Number) : n.numeral.number? = some n := by
  cases n with
  | integer n fits =>
    by_cases hneg : n < 0
    · have hsize : n.natAbs ≠ 0 := by omega
      have hvalue : -(n.natAbs : Int) = n := by omega
      simp only [numeral, Numeral.number?, hneg, decide_true, if_true, digitsValue_natText, hsize,
        if_false, hvalue, integer?_of_fits fits, Option.orElse_some]
    · have hvalue : (n.natAbs : Int) = n := by omega
      simp only [numeral, Numeral.number?, hneg, decide_false, Bool.false_eq_true, if_false,
        digitsValue_natText, hvalue, integer?_of_fits fits, Option.orElse_some]
  | float x =>
    have hreads : Binary64.ofDecimal? x.negative x.shortest = some x := x.readsBack_shortest
    have hfloat : (decimalNumeral x.negative x.shortest).float? = some (.float x) := by
      rw [Numeral.float?, negative_decimalNumeral, ofDecimal?_decimalNumeral, hreads,
        Option.map_some]
    have hpart := isSome_decimalNumeral x.negative x.shortest
    rw [numeral, Numeral.number?, hfloat]
    split
    next hfraction hexponent => simp [hfraction, hexponent] at hpart
    next => rfl

end Number

end SceneLogic.Json

import Mathlib.Algebra.Order.Field.Power
import Mathlib.Data.Int.Log
import Mathlib.Data.Nat.Log
import Mathlib.Data.Rat.Floor
import Mathlib.Tactic.FieldSimp
import Mathlib.Tactic.Positivity
import Mathlib.Tactic.Ring
import SceneLogic.Number.Decimal

/-!
# Rounding to binary numbers

The number nearest to a quotient depends on the quotient alone, not on how it is written,
and a quotient that is a binary number is nearest to that number.  So the exact decimal of
a number reads back, and hence so does the one that is written.

## Main definitions

* `Binary64.magnitude` — the number without its sign, as a rational.

## Main statements

* `Binary64.ofRatio?_congr` — equal quotients are rounded alike.
* `Binary64.ofRatio?_magnitude` — a number is rounded to itself.
* `Binary64.readsBack_shortest` — what is written reads back.
-/

namespace SceneLogic

namespace Binary64

/-! ## The order of a quotient -/

/-- A comparison of shifted numbers is one with a power of two. -/
theorem shiftLeft_le_shiftLeft_iff (num den : Nat) (order : Int) :
    den <<< order.toNat ≤ num <<< (-order).toNat ↔ (2 : ℚ) ^ order * den ≤ num := by
  obtain ⟨n, rfl | rfl⟩ := order.eq_nat_or_neg
  · have hneg : (-(n : Int)).toNat = 0 := by omega
    rw [hneg, Int.toNat_natCast, Nat.shiftLeft_eq, Nat.shiftLeft_zero, zpow_natCast, mul_comm]
    exact_mod_cast Iff.rfl
  · have hneg : (-(n : Int)).toNat = 0 := by omega
    rw [hneg, neg_neg, Int.toNat_natCast, Nat.shiftLeft_zero, Nat.shiftLeft_eq, zpow_neg,
      zpow_natCast, inv_mul_le_iff₀ (by positivity), mul_comm]
    exact_mod_cast Iff.rfl

/-- The order of a quotient is its binary logarithm. -/
theorem binaryOrder_eq_log {num den : Nat} (hnum : num ≠ 0) (hden : den ≠ 0) :
    binaryOrder num den = Int.log 2 ((num : ℚ) / den) := by
  have hden0 : (0 : ℚ) < den := by positivity
  have hquotient : (0 : ℚ) < (num : ℚ) / den := by positivity
  have hle : ∀ order : Int, order ≤ Int.log 2 ((num : ℚ) / den) ↔
      (2 : ℚ) ^ order * den ≤ num := by
    intro order
    rw [← Int.zpow_le_iff_le_log one_lt_two hquotient, le_div_iff₀ hden0]
    rfl
  have hnumLow : (2 : ℚ) ^ num.log2 ≤ num := by exact_mod_cast Nat.log2_self_le hnum
  have hnumHigh : (num : ℚ) < 2 ^ (num.log2 + 1) := by exact_mod_cast Nat.lt_log2_self
  have hdenLow : (2 : ℚ) ^ den.log2 ≤ den := by exact_mod_cast Nat.log2_self_le hden
  have hdenHigh : (den : ℚ) < 2 ^ (den.log2 + 1) := by exact_mod_cast Nat.lt_log2_self
  have hlow : (num.log2 : Int) - den.log2 - 1 ≤ Int.log 2 ((num : ℚ) / den) := by
    rw [hle]
    calc (2 : ℚ) ^ ((num.log2 : Int) - den.log2 - 1) * den
        ≤ 2 ^ ((num.log2 : Int) - den.log2 - 1) * 2 ^ (den.log2 + 1) := by gcongr
      _ = 2 ^ num.log2 := by
          rw [← zpow_natCast, ← zpow_natCast, ← zpow_add₀ two_ne_zero]
          congr 1
          push_cast
          ring
      _ ≤ num := hnumLow
  have hhigh : Int.log 2 ((num : ℚ) / den) < (num.log2 : Int) - den.log2 + 1 := by
    rw [← not_le, hle, not_le]
    calc (num : ℚ) < 2 ^ (num.log2 + 1) := hnumHigh
      _ = 2 ^ ((num.log2 : Int) - den.log2 + 1) * 2 ^ den.log2 := by
          rw [← zpow_natCast, ← zpow_natCast, ← zpow_add₀ two_ne_zero]
          congr 1
          push_cast
          ring
      _ ≤ 2 ^ ((num.log2 : Int) - den.log2 + 1) * den := by gcongr
  unfold binaryOrder
  dsimp only
  split
  next hguess =>
    rw [shiftLeft_le_shiftLeft_iff, ← hle] at hguess
    omega
  next hguess =>
    rw [shiftLeft_le_shiftLeft_iff, ← hle] at hguess
    omega

/-! ## Rounding a quotient -/

theorem roundQuotient_mul (num den : Nat) {factor : Nat} (hfactor : factor ≠ 0) :
    roundQuotient (num * factor) (den * factor) = roundQuotient num den := by
  have hpos : 0 < factor := Nat.pos_of_ne_zero hfactor
  have htwice : 2 * (num % den * factor) = 2 * (num % den) * factor := by ring
  simp only [roundQuotient, Nat.mul_div_mul_right _ _ hpos, Nat.mul_mod_mul_right, htwice,
    Nat.mul_lt_mul_right hpos]

/-- A quotient that is a whole number is rounded to it. -/
theorem roundQuotient_mul_self (n : Nat) {den : Nat} (hden : den ≠ 0) :
    roundQuotient (n * den) den = n := by
  have hpos : 0 < den := Nat.pos_of_ne_zero hden
  simp [roundQuotient, hpos]

theorem ofRatio?_mul (negative : Bool) {num den factor : Nat} (hnum : num ≠ 0) (hden : den ≠ 0)
    (hfactor : factor ≠ 0) :
    ofRatio? negative (num * factor) (den * factor) = ofRatio? negative num den := by
  have horder : binaryOrder (num * factor) (den * factor) = binaryOrder num den := by
    rw [binaryOrder_eq_log (Nat.mul_ne_zero hnum hfactor) (Nat.mul_ne_zero hden hfactor),
      binaryOrder_eq_log hnum hden]
    push_cast
    rw [mul_div_mul_right _ _ (by positivity)]
  have hshift : ∀ n shift : Nat, (n * factor) <<< shift = (n <<< shift) * factor := by
    intro n shift
    rw [Nat.shiftLeft_eq, Nat.shiftLeft_eq]
    ring
  simp only [ofRatio?, horder, hshift, roundQuotient_mul _ _ hfactor, Nat.mul_eq_zero, hfactor,
    or_false]

/-- **Equal quotients are rounded alike.** -/
theorem ofRatio?_congr (negative : Bool) {num den num' den' : Nat} (hden : den ≠ 0)
    (hden' : den' ≠ 0) (heq : (num : ℚ) / den = num' / den') :
    ofRatio? negative num den = ofRatio? negative num' den' := by
  have hcross : num * den' = num' * den := by
    rw [div_eq_div_iff (by positivity) (by positivity)] at heq
    exact_mod_cast heq
  by_cases hnum : num = 0
  · have hnum' : num' = 0 := by simpa [hnum, hden] using hcross.symm
    simp [ofRatio?, hnum, hnum']
  · have hnum' : num' ≠ 0 := by
      rintro rfl
      simp [hnum, hden'] at hcross
    rw [← ofRatio?_mul negative hnum hden hden', hcross, mul_comm den den',
      ofRatio?_mul negative hnum' hden' hden]

/-- The number without its sign. -/
def magnitude (x : Binary64) : ℚ := x.significand * 2 ^ x.exponent

/-- A power of two as a quotient of shifts. -/
theorem two_zpow_eq_div (exponent : Int) :
    (2 : ℚ) ^ exponent = 2 ^ exponent.toNat / 2 ^ (-exponent).toNat := by
  obtain ⟨n, rfl | rfl⟩ := exponent.eq_nat_or_neg
  · have hneg : (-(n : Int)).toNat = 0 := by omega
    simp [hneg]
  · have hneg : (-(n : Int)).toNat = 0 := by omega
    simp [hneg]

theorem log_magnitude {x : Binary64} (hx : x.significand ≠ 0) :
    Int.log 2 x.magnitude = x.significand.log2 + x.exponent := by
  have hlow : (2 : ℚ) ^ x.significand.log2 ≤ x.significand := by
    exact_mod_cast Nat.log2_self_le hx
  have hhigh : (x.significand : ℚ) < 2 ^ (x.significand.log2 + 1) := by
    exact_mod_cast Nat.lt_log2_self
  have hpos : (0 : ℚ) < x.magnitude := by
    unfold magnitude
    positivity
  apply le_antisymm
  · rw [← Int.lt_add_one_iff, ← Int.lt_zpow_iff_log_lt one_lt_two hpos]
    calc x.magnitude < 2 ^ (x.significand.log2 + 1) * 2 ^ x.exponent := by
          unfold magnitude
          gcongr
      _ = ((2 : Nat) : ℚ) ^ (x.significand.log2 + x.exponent + 1) := by
          rw [← zpow_natCast, ← zpow_add₀ two_ne_zero]
          push_cast
          ring_nf
  · rw [← Int.zpow_le_iff_le_log one_lt_two hpos]
    calc ((2 : Nat) : ℚ) ^ (x.significand.log2 + x.exponent)
        = 2 ^ x.significand.log2 * 2 ^ x.exponent := by
          rw [Nat.cast_ofNat, zpow_add₀ two_ne_zero, zpow_natCast]
      _ ≤ x.magnitude := by
          unfold magnitude
          gcongr

/-- **A number is rounded to itself**, however it is written as a quotient. -/
theorem ofRatio?_magnitude {x : Binary64} (hx : x.significand ≠ 0) {num den : Nat}
    (hden : den ≠ 0) (heq : (num : ℚ) / den = x.magnitude) :
    ofRatio? x.negative num den = some x := by
  have hcross : num <<< (-x.exponent).toNat = x.significand * (den <<< x.exponent.toNat) := by
    rw [Nat.shiftLeft_eq, Nat.shiftLeft_eq]
    rw [magnitude, two_zpow_eq_div, ← mul_div_assoc, div_eq_div_iff (by positivity) (by positivity)]
      at heq
    have hcast : num * 2 ^ (-x.exponent).toNat = x.significand * 2 ^ x.exponent.toNat * den := by
      exact_mod_cast heq
    rw [hcast]
    ring
  have hshift : den <<< x.exponent.toNat ≠ 0 := by simp [Nat.shiftLeft_eq, hden]
  have hnum : num ≠ 0 := by
    rintro rfl
    simp [hx, hshift] at hcross
  have hlog : binaryOrder num den = x.significand.log2 + x.exponent := by
    rw [binaryOrder_eq_log hnum hden, heq, log_magnitude hx]
  have hsize := Nat.log2_self_le hx
  obtain ⟨negative, significand, exponent, hcanonical⟩ := x
  dsimp only at hx hcross hshift hlog ⊢
  have hexponent : max (binaryOrder num den - 52) (-1074) = exponent := by
    have hlt : significand.log2 < 53 := (Nat.log2_lt hx).2 hcanonical.1
    rw [hlog]
    rcases hcanonical.2.2.2 with hnormal | hleast
    · have hge : 52 ≤ significand.log2 := (Nat.le_log2 hx).2 hnormal
      omega
    · omega
  have hlt : significand ≠ 1 <<< 53 := Nat.ne_of_lt hcanonical.1
  simp only [ofRatio?, hnum, if_false, hexponent, hcross, roundQuotient_mul_self _ hshift, hlt]
  rw [make?, dif_pos hcanonical]

/-! ## Reading decimals -/

/-- A decimal that is equal to a number reads as that number. -/
theorem readsBack_exactDecimal {x : Binary64} (hx : x.significand ≠ 0) :
    x.ReadsBack x.exactDecimal := by
  unfold exactDecimal
  split
  next hnonneg =>
    have hdigits : x.significand <<< x.exponent.toNat ≠ 0 := by simp [Nat.shiftLeft_eq, hx]
    rw [ReadsBack, ofDecimal?, if_neg hdigits, if_neg (by dsimp only; omega),
      if_neg (by dsimp only; omega)]
    apply ofRatio?_magnitude hx (by simp)
    have hneg : (-x.exponent).toNat = 0 := by omega
    rw [magnitude, two_zpow_eq_div, hneg, Nat.shiftLeft_eq]
    simp
  next hneg =>
    obtain ⟨n, hn⟩ : ∃ n : Nat, x.exponent = -n := ⟨(-x.exponent).toNat, by omega⟩
    have hzero : (-(n : Int)).toNat = 0 := by omega
    rw [hn, neg_neg, Int.toNat_natCast]
    have hdigits : x.significand * Nat.pow 5 n ≠ 0 := by simp [hx]
    -- The powers of five make up for the exponent.
    have hsize : n ≤ (x.significand * Nat.pow 5 n).log2 := by
      rw [Nat.le_log2 hdigits]
      calc 2 ^ n ≤ 5 ^ n := Nat.pow_le_pow_left (by decide) n
        _ ≤ x.significand * 5 ^ n := Nat.le_mul_of_pos_left _ (Nat.pos_of_ne_zero hx)
    rw [ReadsBack, ofDecimal?, if_neg hdigits, if_neg (by dsimp only; omega),
      if_neg (by dsimp only; omega)]
    dsimp only
    rw [hzero, neg_neg, Int.toNat_natCast]
    apply ofRatio?_magnitude hx (by simp)
    have hten : (10 : ℚ) ^ n = 2 ^ n * 5 ^ n := by rw [← mul_pow]; norm_num
    rw [magnitude, hn, zpow_neg, zpow_natCast]
    push_cast [Nat.pow_eq, hten]
    field_simp

/-- **The decimal that is written for a number reads back.** -/
theorem readsBack_shortest (x : Binary64) : x.ReadsBack x.shortest := by
  unfold shortest
  split
  next hzero =>
    obtain ⟨negative, significand, exponent, hcanonical⟩ := x
    dsimp only at hzero
    subst hzero
    have hexponent : exponent = -1074 := by simpa using hcanonical.2.2.2
    subst hexponent
    rfl
  next hx =>
    generalize hfound : List.findSome? _ _ = found
    cases found with
    | none => exact readsBack_exactDecimal hx
    | some decimal =>
      obtain ⟨place, -, hplace⟩ := List.exists_of_findSome?_eq_some hfound
      have hreads := List.find?_some hplace
      exact of_decide_eq_true hreads

/-- Only zero is written without other digits. -/
theorem shortest_ne_zero (x : Binary64) : x.shortest.digits ≠ 0 ∨ x.shortest.exponent = 0 := by
  by_cases hx : x.significand = 0
  · right
    rw [shortest, if_pos hx]
  · left
    intro hzero
    have hreads : ofDecimal? x.negative x.shortest = some x := x.readsBack_shortest
    rw [ofDecimal?, if_pos hzero, Option.some.injEq] at hreads
    exact hx (congrArg significand hreads).symm

end Binary64

end SceneLogic

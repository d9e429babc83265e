import SceneLogic.Proofs.Number.Rounding

/-!
# The nearest number

Rounding takes a quotient to a number that no other number is nearer to.  That alone makes it
monotone, and makes it keep what is a number already.  So an integer goes to a float in order:
of two integers the greater one never goes to the lesser float, but different integers may go
to one.  Up to `2 ^ 53` the integers are numbers themselves and stay apart, from each other and
from all beyond.

## Main definitions

* `Binary64.toRat` — the number as a rational.

## Main statements

* `Binary64.ofRatio?_nearest` — no number is nearer to a quotient than the one it is rounded to.
* `Binary64.toRat_ofInt_mono` — integers keep their order, unless they go to one number.
* `Binary64.toRat_ofInt_lt_of_small` — where they do not.
-/

namespace SceneLogic

namespace Binary64

/-! ## Rounding a quotient to a whole number -/

/-- The rest decides between the quotient and the next whole number. -/
theorem roundQuotient_cases (num den : Nat) :
    roundQuotient num den = num / den ∧ 2 * (num % den) ≤ den ∨
      roundQuotient num den = num / den + 1 ∧ den ≤ 2 * (num % den) := by
  simp only [roundQuotient]
  split_ifs <;> omega

theorem le_roundQuotient {num den bound : Nat} (hle : bound * den ≤ num) (hden : den ≠ 0) :
    bound ≤ roundQuotient num den := by
  have hquotient : bound ≤ num / den := (Nat.le_div_iff_mul_le (Nat.pos_of_ne_zero hden)).2 hle
  have hcases := roundQuotient_cases num den
  omega

theorem roundQuotient_le {num den bound : Nat} (hlt : num < bound * den) :
    roundQuotient num den ≤ bound := by
  have hquotient : num / den < bound := Nat.div_lt_of_lt_mul (Nat.mul_comm bound den ▸ hlt)
  have hcases := roundQuotient_cases num den
  omega

/-- The whole number is off by half at most. -/
theorem abs_roundQuotient_sub_le (num : Nat) {den : Nat} (hden : den ≠ 0) :
    |(roundQuotient num den : ℚ) - num / den| ≤ 1 / 2 := by
  have hpos : (0 : ℚ) < den := by positivity
  have hsplit : (num : ℚ) / den = (num / den : Nat) + (num % den : Nat) / den := by
    have hnum : (num : ℚ) = den * (num / den : Nat) + (num % den : Nat) := by
      exact_mod_cast (Nat.div_add_mod num den).symm
    rw [div_eq_iff hpos.ne', hnum]
    field_simp
  have hrest : ((num % den : Nat) : ℚ) < den := by exact_mod_cast Nat.mod_lt num (by positivity)
  rw [hsplit, abs_le]
  rcases roundQuotient_cases num den with ⟨hround, hhalf⟩ | ⟨hround, hhalf⟩
  · have hhalf : ((num % den : Nat) : ℚ) / den ≤ 1 / 2 := by
      rw [div_le_iff₀ hpos]
      have htwice : (2 : ℚ) * (num % den : Nat) ≤ den := by exact_mod_cast hhalf
      linarith
    have hnonneg : (0 : ℚ) ≤ ((num % den : Nat) : ℚ) / den := by positivity
    rw [hround]
    constructor <;> linarith
  · have hhalf : 1 / 2 ≤ ((num % den : Nat) : ℚ) / den := by
      rw [le_div_iff₀ hpos]
      have htwice : (den : ℚ) ≤ 2 * (num % den : Nat) := by exact_mod_cast hhalf
      linarith
    have hone : ((num % den : Nat) : ℚ) / den < 1 := (div_lt_one hpos).2 hrest
    rw [hround]
    push_cast
    constructor <;> linarith

/-- No whole number is nearer. -/
theorem abs_roundQuotient_sub_le_abs_sub (num : Nat) {den : Nat} (hden : den ≠ 0) (n : Nat) :
    |(roundQuotient num den : ℚ) - num / den| ≤ |(n : ℚ) - num / den| := by
  have hhalf := abs_roundQuotient_sub_le num hden
  by_cases heq : n = roundQuotient num den
  · rw [heq]
  · have hone : (1 : ℚ) ≤ |(n : ℚ) - roundQuotient num den| := by
      have hne : (n : Int) - roundQuotient num den ≠ 0 := by omega
      exact_mod_cast Int.one_le_abs hne
    have htriangle := abs_sub_le (n : ℚ) (num / den) (roundQuotient num den)
    rw [abs_sub_comm (num / den : ℚ)] at htriangle
    linarith

/-! ## Rounding a quotient to a number -/

/-- The exponent that the nearest number to a quotient has, unless its significand is rounded
up to the next power of two. -/
def quotientExponent (num den : Nat) : Int := max (binaryOrder num den - 52) (-1074)

/-- A quotient in units of the last place, rounded to a whole number. -/
def quotientSignificand (num den : Nat) : Nat :=
  roundQuotient (num <<< (-quotientExponent num den).toNat)
    (den <<< (quotientExponent num den).toNat)

section

variable {num den : Nat}

theorem cast_one_shiftLeft (places : Nat) : ((1 <<< places : Nat) : ℚ) = 2 ^ (places : Int) := by
  rw [Nat.one_shiftLeft, zpow_natCast]
  norm_cast

theorem shifted_ne_zero (hden : den ≠ 0) (places : Nat) : den <<< places ≠ 0 := by
  simp [Nat.shiftLeft_eq, hden]

/-- A quotient of shifted numbers is a quotient in units of a power of two. -/
theorem shifted_div_shifted (num den : Nat) (exponent : Int) :
    ((num <<< (-exponent).toNat : Nat) : ℚ) / (den <<< exponent.toNat : Nat) =
      num / den / 2 ^ exponent := by
  rw [Nat.shiftLeft_eq, Nat.shiftLeft_eq, two_zpow_eq_div]
  push_cast
  field_simp

/-- The quotient lies between the powers of two of its order. -/
theorem quotient_bounds (hnum : num ≠ 0) (hden : den ≠ 0) :
    (2 : ℚ) ^ binaryOrder num den ≤ num / den ∧
      (num / den : ℚ) < 2 ^ (binaryOrder num den + 1) := by
  have hpos : (0 : ℚ) < num / den := by positivity
  rw [binaryOrder_eq_log hnum hden]
  exact ⟨Int.zpow_log_le_self one_lt_two hpos, Int.lt_zpow_succ_log_self one_lt_two _⟩

/-- The significand has 53 bits, or one more than that, unless the exponent is the least. -/
theorem quotientSignificand_bounds (hnum : num ≠ 0) (hden : den ≠ 0) :
    quotientSignificand num den ≤ 1 <<< 53 ∧
      (1 <<< 52 ≤ quotientSignificand num den ∨ quotientExponent num den = -1074) := by
  obtain ⟨hlow, hhigh⟩ := quotient_bounds hnum hden
  have hshift := shifted_ne_zero hden (quotientExponent num den).toNat
  have hscaled := shifted_div_shifted num den (quotientExponent num den)
  have hpower : (0 : ℚ) < 2 ^ quotientExponent num den := by positivity
  have hplaces : (0 : ℚ) < (den <<< (quotientExponent num den).toNat : Nat) := by positivity
  rw [div_eq_iff hplaces.ne'] at hscaled
  constructor
  · apply roundQuotient_le
    rw [← Nat.cast_lt (α := ℚ), hscaled, Nat.cast_mul, mul_lt_mul_iff_left₀ hplaces,
      div_lt_iff₀ hpower]
    calc (num / den : ℚ) < 2 ^ (binaryOrder num den + 1) := hhigh
      _ ≤ 2 ^ (53 + quotientExponent num den) :=
          zpow_le_zpow_right₀ one_le_two (by unfold quotientExponent; omega)
      _ = ((1 <<< 53 : Nat) : ℚ) * 2 ^ quotientExponent num den := by
          rw [cast_one_shiftLeft, ← zpow_add₀ two_ne_zero]
          rfl
  · refine (le_total (binaryOrder num den - 52) (-1074)).symm.imp (fun hle => ?_) fun hle => ?_
    · have hexponent : quotientExponent num den = binaryOrder num den - 52 := max_eq_left hle
      apply le_roundQuotient _ hshift
      rw [← Nat.cast_le (α := ℚ), hscaled, Nat.cast_mul, mul_le_mul_iff_left₀ hplaces,
        le_div_iff₀ hpower]
      calc ((1 <<< 52 : Nat) : ℚ) * 2 ^ quotientExponent num den
          = 2 ^ binaryOrder num den := by
            rw [cast_one_shiftLeft, ← zpow_add₀ two_ne_zero, hexponent]
            congr 1
            omega
        _ ≤ num / den := hlow
    · exact max_eq_right hle

theorem of_make?_eq_some {negative : Bool} {significand : Nat} {exponent : Int} {x : Binary64}
    (h : make? negative significand exponent = some x) :
    x.negative = negative ∧ x.magnitude = significand * 2 ^ exponent := by
  unfold make? at h
  split at h
  · cases h
    exact ⟨rfl, rfl⟩
  · cases h

theorem ofRatio?_eq (negative : Bool) (hnum : num ≠ 0) : ofRatio? negative num den =
    if quotientSignificand num den = 1 <<< 53
    then make? negative (1 <<< 52) (quotientExponent num den + 1)
    else make? negative (quotientSignificand num den) (quotientExponent num den) := by
  rw [ofRatio?, if_neg hnum]
  rfl

/-- The number that a quotient is rounded to. -/
theorem of_ofRatio?_eq_some {negative : Bool} {x : Binary64} (hnum : num ≠ 0)
    (h : ofRatio? negative num den = some x) :
    x.negative = negative ∧
      x.magnitude = quotientSignificand num den * 2 ^ quotientExponent num den := by
  rw [ofRatio?_eq negative hnum] at h
  split at h
  next hcarry =>
    obtain ⟨hnegative, hmagnitude⟩ := of_make?_eq_some h
    refine ⟨hnegative, hmagnitude.trans ?_⟩
    rw [hcarry, cast_one_shiftLeft, cast_one_shiftLeft, ← zpow_add₀ two_ne_zero,
      ← zpow_add₀ two_ne_zero]
    congr 1
    omega
  next => exact of_make?_eq_some h

/-- A quotient that is not too great is rounded to some number. -/
theorem exists_ofRatio? (negative : Bool) (hden : den ≠ 0) (horder : binaryOrder num den < 1023) :
    ∃ x, ofRatio? negative num den = some x := by
  by_cases hnum : num = 0
  · exact ⟨zero negative, by rw [ofRatio?, if_pos hnum]⟩
  obtain ⟨hhigh, hlow⟩ := quotientSignificand_bounds hnum hden
  have hexponent : -1074 ≤ quotientExponent num den ∧ quotientExponent num den ≤ 970 := by
    unfold quotientExponent
    omega
  rw [ofRatio?_eq negative hnum]
  split
  next => exact ⟨_, dif_pos ⟨by decide, by omega, by omega, .inl (Nat.le_refl _)⟩⟩
  next hcarry =>
    exact ⟨_, dif_pos ⟨Nat.lt_of_le_of_ne hhigh hcarry, by omega, by omega, hlow⟩⟩

/-- The rounded quotient is off by no more than any whole number of units of its last place. -/
theorem abs_quotientSignificand_sub_le (num : Nat) (hden : den ≠ 0) (n : Nat) :
    |(quotientSignificand num den * 2 ^ quotientExponent num den : ℚ) - num / den| ≤
      |(n * 2 ^ quotientExponent num den : ℚ) - num / den| := by
  have hpower : (0 : ℚ) < 2 ^ quotientExponent num den := by positivity
  have hscale : ∀ m : ℚ, |m * 2 ^ quotientExponent num den - num / den| =
      |m - num / den / 2 ^ quotientExponent num den| * 2 ^ quotientExponent num den := by
    intro m
    rw [← abs_of_pos hpower, ← abs_mul, abs_of_pos hpower, sub_mul,
      div_mul_cancel₀ _ hpower.ne']
  rw [hscale, hscale, ← shifted_div_shifted]
  have hwhole := abs_roundQuotient_sub_le_abs_sub (num <<< (-quotientExponent num den).toNat)
    (shifted_ne_zero hden (quotientExponent num den).toNat) n
  exact mul_le_mul_of_nonneg_right hwhole hpower.le

/-- **No number is nearer to a quotient than the one it is rounded to.** -/
theorem ofRatio?_nearest {negative : Bool} {x : Binary64} (hden : den ≠ 0)
    (h : ofRatio? negative num den = some x) (y : Binary64) :
    |x.magnitude - num / den| ≤ |y.magnitude - num / den| := by
  by_cases hnum : num = 0
  · subst hnum
    obtain rfl : zero negative = x := by simpa [ofRatio?] using h
    have hzero : (zero negative).magnitude = 0 := by simp [magnitude, zero]
    simp [hzero]
  rw [(of_ofRatio?_eq_some hnum h).2]
  have hcanonical := y.canonical
  by_cases hexponent : quotientExponent num den ≤ y.exponent
  · -- The other number is a whole number of units of the last place.
    obtain ⟨places, hplaces⟩ := Int.eq_ofNat_of_zero_le (Int.sub_nonneg.2 hexponent)
    have hunits : y.magnitude = (y.significand * 2 ^ places : Nat) *
        2 ^ quotientExponent num den := by
      rw [magnitude, show y.exponent = places + quotientExponent num den by omega,
        zpow_add₀ two_ne_zero, zpow_natCast]
      push_cast
      ring
    rw [hunits]
    exact abs_quotientSignificand_sub_le num hden _
  · -- The other number is below the power of two at or below the quotient.
    have hnormal : quotientExponent num den = binaryOrder num den - 52 := by
      unfold quotientExponent at hexponent ⊢
      omega
    have hpower : ((1 <<< 52 : Nat) : ℚ) * 2 ^ quotientExponent num den =
        2 ^ binaryOrder num den := by
      rw [cast_one_shiftLeft, ← zpow_add₀ two_ne_zero, hnormal]
      congr 1
      omega
    have hbelow : y.magnitude ≤ 2 ^ binaryOrder num den := by
      calc y.magnitude ≤ ((1 <<< 53 : Nat) : ℚ) * 2 ^ y.exponent := by
            rw [magnitude]
            gcongr
            exact hcanonical.1.le
        _ = 2 ^ (53 + y.exponent) := by rw [cast_one_shiftLeft, ← zpow_add₀ two_ne_zero]; rfl
        _ ≤ 2 ^ binaryOrder num den := zpow_le_zpow_right₀ one_le_two (by omega)
    have hquotient := (quotient_bounds hnum hden).1
    refine (abs_quotientSignificand_sub_le num hden (1 <<< 52)).trans ?_
    rw [hpower, abs_of_nonpos (sub_nonpos.2 hquotient),
      abs_of_nonpos (sub_nonpos.2 (hbelow.trans hquotient))]
    linarith

/-- A quotient that is a whole number of units of its last place is kept. -/
theorem magnitude_of_units {negative : Bool} {x : Binary64} (hnum : num ≠ 0) (hden : den ≠ 0)
    (h : ofRatio? negative num den = some x) {n : Nat}
    (hunits : (num / den : ℚ) = n * 2 ^ quotientExponent num den) :
    x.magnitude = num / den := by
  have hzero := abs_quotientSignificand_sub_le num hden n
  rw [← (of_ofRatio?_eq_some hnum h).2, ← hunits, sub_self, abs_zero] at hzero
  exact sub_eq_zero.1 (abs_nonpos_iff.1 hzero)

end

/-! ## Integers -/

/-- The number with its sign. -/
def toRat (x : Binary64) : ℚ := if x.negative then -x.magnitude else x.magnitude

theorem cast_units (x : Binary64) : (x.units : ℚ) = x.toRat * 2 ^ 1074 := by
  have hexponent : ((x.exponent + 1074).toNat : Int) = x.exponent + (1074 : Nat) := by
    have hleast := x.canonical.2.1
    omega
  have hsize : ((x.significand <<< (x.exponent + 1074).toNat : Nat) : ℚ) =
      x.magnitude * 2 ^ 1074 := by
    rw [Nat.shiftLeft_eq, magnitude, Nat.cast_mul, Nat.cast_pow, Nat.cast_two, ← zpow_natCast,
      hexponent, zpow_add₀ two_ne_zero, zpow_natCast, mul_assoc]
  rw [units, toRat]
  split
  · rw [Int.cast_neg, Int.cast_natCast, hsize, neg_mul]
  · rw [Int.cast_natCast, hsize]

/-- Numbers are compared as rationals. -/
theorem units_le_units_iff (x y : Binary64) : x.units ≤ y.units ↔ x.toRat ≤ y.toRat := by
  rw [← Int.cast_le (R := ℚ), cast_units, cast_units, mul_le_mul_iff_left₀ (by positivity)]

theorem magnitude_nonneg (x : Binary64) : 0 ≤ x.magnitude := by
  unfold magnitude
  positivity

theorem abs_toRat (x : Binary64) : |x.toRat| = x.magnitude := by
  unfold toRat
  split
  · rw [abs_neg, abs_of_nonneg x.magnitude_nonneg]
  · exact abs_of_nonneg x.magnitude_nonneg

variable {a b n : Int}

/-- The order of an integer of 64 bits. -/
theorem binaryOrder_natAbs_lt (hn : n.natAbs < 2 ^ 64) : binaryOrder n.natAbs 1 < 64 := by
  by_cases hzero : n.natAbs = 0
  · rw [hzero]
    decide
  have hlow := (quotient_bounds hzero one_ne_zero).1
  rw [Nat.cast_one, div_one] at hlow
  have hhigh : (n.natAbs : ℚ) < 2 ^ (64 : Int) := by exact_mod_cast hn
  exact (zpow_lt_zpow_iff_right₀ one_lt_two).1 (hlow.trans_lt hhigh)

/-- An integer of 64 bits goes to a number. -/
theorem ofRatio?_natAbs (hn : n.natAbs < 2 ^ 64) :
    ofRatio? (n < 0) n.natAbs 1 = some (ofInt n) := by
  have horder := binaryOrder_natAbs_lt hn
  obtain ⟨x, hx⟩ := exists_ofRatio? (n < 0) one_ne_zero (by omega : binaryOrder n.natAbs 1 < 1023)
  rw [ofInt, hx, Option.getD_some]

theorem toRat_ofInt (hn : n.natAbs < 2 ^ 64) :
    (ofInt n).toRat = if n < 0 then -(ofInt n).magnitude else (ofInt n).magnitude := by
  have hsome := ofRatio?_natAbs hn
  by_cases hzero : n = 0
  · subst hzero
    rfl
  · have hnegative := (of_ofRatio?_eq_some (Int.natAbs_ne_zero.2 hzero) hsome).1
    simp [toRat, hnegative]

/-- No number is nearer to an integer than the one it goes to. -/
theorem toRat_ofInt_nearest (hn : n.natAbs < 2 ^ 64) (y : Binary64) :
    |(ofInt n).toRat - n| ≤ |y.toRat - n| := by
  have hnearest := ofRatio?_nearest one_ne_zero (ofRatio?_natAbs hn) y
  have hsize : (n.natAbs : ℚ) = |(n : ℚ)| := by rw [Nat.cast_natAbs, Int.cast_abs]
  rw [Nat.cast_one, div_one, hsize, ← abs_toRat y] at hnearest
  refine le_trans (le_of_eq ?_) (hnearest.trans (abs_abs_sub_abs_le _ _))
  rw [toRat_ofInt hn]
  split
  next hneg =>
    rw [abs_of_neg (Int.cast_lt_zero.2 hneg), ← abs_neg]
    congr 1
    ring
  next hneg => rw [abs_of_nonneg (Int.cast_nonneg (not_lt.1 hneg))]

/-- **Integers keep their order**, unless they go to one number. -/
theorem toRat_ofInt_mono (ha : a.natAbs < 2 ^ 64) (hb : b.natAbs < 2 ^ 64) (hle : a ≤ b) :
    (ofInt a).toRat ≤ (ofInt b).toRat := by
  by_contra! hlt
  have hlow := toRat_ofInt_nearest ha (ofInt b)
  have hhigh := toRat_ofInt_nearest hb (ofInt a)
  have hcast : (a : ℚ) ≤ b := by exact_mod_cast hle
  -- Each goes to the number that is nearer, so the lesser integer is the greater.
  have hlow : (ofInt b).toRat + (ofInt a).toRat ≤ 2 * (a : ℚ) := by
    by_contra! hmiddle
    rcases abs_cases ((ofInt a).toRat - a) with habs | habs <;>
      rcases abs_cases ((ofInt b).toRat - a) with habs' | habs' <;> linarith
  have hhigh : 2 * (b : ℚ) ≤ (ofInt b).toRat + (ofInt a).toRat := by
    by_contra! hmiddle
    rcases abs_cases ((ofInt a).toRat - b) with habs | habs <;>
      rcases abs_cases ((ofInt b).toRat - b) with habs' | habs' <;> linarith
  have heq : (a : ℚ) = b := by linarith
  rw [Int.cast_inj.1 heq] at hlt
  exact lt_irrefl _ hlt

/-- An integer of at most 53 bits, or the next power of two, is a number. -/
theorem toRat_ofInt_of_le (hn : n.natAbs ≤ 2 ^ 53) : (ofInt n).toRat = n := by
  have hword : n.natAbs < 2 ^ 64 := lt_of_le_of_lt hn (by decide)
  by_cases hzero : n = 0
  · subst hzero
    rw [toRat_ofInt hword]
    simp [magnitude, ofInt, ofRatio?, zero]
  have hsize := Int.natAbs_ne_zero.2 hzero
  have hlow := (quotient_bounds hsize one_ne_zero).1
  rw [Nat.cast_one, div_one] at hlow
  have horder : binaryOrder n.natAbs 1 < 54 := by
    have hhigh : (n.natAbs : ℚ) < 2 ^ (54 : Int) := by
      exact_mod_cast lt_of_le_of_lt hn (by decide : 2 ^ 53 < 2 ^ 54)
    exact (zpow_lt_zpow_iff_right₀ one_lt_two).1 (hlow.trans_lt hhigh)
  -- The last place is at or below the units, or the integer is a power of two.
  have hunits : ∃ m : Nat, ((n.natAbs : ℚ) / (1 : Nat)) = m * 2 ^ quotientExponent n.natAbs 1 := by
    rw [Nat.cast_one, div_one]
    by_cases hexponent : quotientExponent n.natAbs 1 ≤ 0
    · refine ⟨n.natAbs * 2 ^ (-quotientExponent n.natAbs 1).toNat, ?_⟩
      rw [Nat.cast_mul, Nat.cast_pow, Nat.cast_two, mul_assoc, ← zpow_natCast,
        ← zpow_add₀ two_ne_zero, Int.toNat_of_nonneg (by omega), neg_add_cancel, zpow_zero, mul_one]
    · have hone : quotientExponent n.natAbs 1 = 1 := by
        unfold quotientExponent at hexponent ⊢
        omega
      have hpower : binaryOrder n.natAbs 1 = 53 := by
        unfold quotientExponent at hone
        omega
      have hge : 2 ^ 53 ≤ n.natAbs := by
        rw [hpower] at hlow
        exact_mod_cast hlow
      refine ⟨2 ^ 52, ?_⟩
      rw [hone, le_antisymm hn hge]
      norm_num
  obtain ⟨m, hm⟩ := hunits
  have hmagnitude := magnitude_of_units hsize one_ne_zero (ofRatio?_natAbs hword) hm
  have hcast : (n.natAbs : ℚ) = |(n : ℚ)| := by rw [Nat.cast_natAbs, Int.cast_abs]
  rw [toRat_ofInt hword, hmagnitude, Nat.cast_one, div_one, hcast]
  split
  next hneg => rw [abs_of_neg (Int.cast_lt_zero.2 hneg), neg_neg]
  next hneg => exact abs_of_nonneg (Int.cast_nonneg (not_lt.1 hneg))

/-- Integers on both sides of two neighbours that are numbers go to different numbers. -/
theorem toRat_ofInt_lt (ha : a.natAbs < 2 ^ 64) (hb : b.natAbs < 2 ^ 64) (hle : a ≤ n)
    (hlt : n < b) (hn : n.natAbs ≤ 2 ^ 53) (hnext : (n + 1).natAbs ≤ 2 ^ 53) :
    (ofInt a).toRat < (ofInt b).toRat := by
  calc (ofInt a).toRat ≤ (ofInt n).toRat :=
        toRat_ofInt_mono ha (lt_of_le_of_lt hn (by decide)) hle
    _ = n := toRat_ofInt_of_le hn
    _ < (n + 1 : Int) := by exact_mod_cast Int.lt_succ n
    _ = (ofInt (n + 1)).toRat := (toRat_ofInt_of_le hnext).symm
    _ ≤ (ofInt b).toRat := toRat_ofInt_mono (lt_of_le_of_lt hnext (by decide)) hb hlt

/-- **Small integers stay apart** from all others, and so do integers of different signs. -/
theorem toRat_ofInt_lt_of_small (ha : a.natAbs < 2 ^ 64) (hb : b.natAbs < 2 ^ 64)
    (hsmall : a.natAbs < 2 ^ 53 ∨ b.natAbs < 2 ^ 53 ∨ a.sign ≠ b.sign) (hlt : a < b) :
    (ofInt a).toRat < (ofInt b).toRat := by
  rcases hsmall with hsmall | hsmall | hsign
  · exact toRat_ofInt_lt ha hb le_rfl hlt (by omega) (by omega)
  · exact toRat_ofInt_lt (n := b - 1) ha hb (by omega) (by omega) (by omega) (by omega)
  · -- Zero is one of them, or between them.
    by_cases hnonneg : 0 ≤ a
    · have hzero : a = 0 := by
        by_contra hne
        exact hsign (by rw [Int.sign_eq_one_of_pos (by omega), Int.sign_eq_one_of_pos (by omega)])
      exact toRat_ofInt_lt ha hb le_rfl hlt (by omega) (by omega)
    · have hge : 0 ≤ b := by
        by_contra hneg
        exact hsign (by rw [Int.sign_eq_neg_one_of_neg (by omega),
          Int.sign_eq_neg_one_of_neg (by omega)])
      exact toRat_ofInt_lt (n := -1) ha hb (by omega) (by omega) (by decide) (by decide)

end Binary64

end SceneLogic

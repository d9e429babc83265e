import SceneLogic.Json.Document
import SceneLogic.Proofs.Number.Nearest

/-!
# Agreement of values

Two values agree if they are the same tree but for the signs of zeros.  So agreement is equality
of what is left when every minus zero in a value gives way to zero, and with that it is an
equivalence.  Two floats are of one size exactly if they differ at most in the sign of a zero:
each other number has one significand and one exponent.

## Main definitions

* `Binary64.withOneZero`, `Document.withOneZero` — with zero in place of minus zero.

## Main statements

* `Binary64.units_eq_iff` — floats of one size.
* `Document.agrees_iff` — agreement is equality with one zero.
-/

namespace SceneLogic

/-! ## Floats -/

namespace Binary64

/-- The number, with zero in place of minus zero. -/
def withOneZero (x : Binary64) : Binary64 := if x.significand = 0 then zero false else x

variable {x y : Binary64}

theorem units_eq_zero_iff : x.units = 0 ↔ x.significand = 0 := by
  unfold units
  split <;> simp [Nat.shiftLeft_eq]

/-- The sign of a number is the sign of its size. -/
theorem units_neg_iff (hx : x.significand ≠ 0) : x.units < 0 ↔ x.negative = true := by
  have hsize : 0 < x.significand <<< (x.exponent + 1074).toNat := by
    rw [Nat.shiftLeft_eq]
    positivity
  unfold units
  split
  next hnegative =>
    rw [iff_true_right hnegative, Int.neg_lt_zero_iff]
    exact_mod_cast hsize
  next hpositive => exact iff_of_false (Int.natCast_nonneg _).not_gt hpositive

/-- A number has one significand and one exponent. -/
theorem eq_of_magnitude_eq (hx : x.significand ≠ 0) (hsign : x.negative = y.negative)
    (heq : x.magnitude = y.magnitude) : x = y := by
  have hy : y.significand ≠ 0 := by
    intro hzero
    simp [magnitude, hzero, hx, zpow_ne_zero] at heq
  have hquotient : ((x.significand * 2 ^ x.exponent.toNat : Nat) : ℚ) /
      (2 ^ (-x.exponent).toNat : Nat) = x.magnitude := by
    rw [magnitude, two_zpow_eq_div]
    push_cast
    ring
  have hsome := ofRatio?_magnitude hx (by positivity) hquotient
  rw [hsign, ofRatio?_magnitude hy (by positivity) (hquotient.trans heq)] at hsome
  exact (Option.some.inj hsome).symm

/-- Two numbers are of one size if they differ at most in the sign of a zero. -/
theorem units_eq_iff : x.units = y.units ↔ x.withOneZero = y.withOneZero := by
  have hzero (z : Binary64) : z.withOneZero.units = z.units := by
    unfold withOneZero
    split
    next h => exact (units_eq_zero_iff.2 h).symm
    next => rfl
  refine ⟨fun hunits => ?_, fun heq => by rw [← hzero x, heq, hzero y]⟩
  by_cases hx : x.significand = 0
  · have hy : y.significand = 0 := by
      rw [← units_eq_zero_iff, ← hunits, units_eq_zero_iff, hx]
    rw [withOneZero, withOneZero, if_pos hx, if_pos hy]
  · have hy : y.significand ≠ 0 := by
      rwa [ne_eq, ← units_eq_zero_iff, ← hunits, units_eq_zero_iff]
    have hsign : x.negative = y.negative := by
      rw [Bool.eq_iff_iff, ← units_neg_iff hx, ← units_neg_iff hy, hunits]
    have hsize : x.magnitude = y.magnitude := by
      rw [← abs_toRat, ← abs_toRat, ((units_le_units_iff x y).1 hunits.le).antisymm
        ((units_le_units_iff y x).1 hunits.ge)]
    rw [eq_of_magnitude_eq hx hsign hsize]

end Binary64

namespace Json

/-! ## Numbers and documents -/

/-- The number, with zero in place of minus zero. -/
def Number.withOneZero : Number → Number
  | .integer n fits => .integer n fits
  | .float x => .float x.withOneZero

theorem Number.agrees_iff (a b : Number) : a.agrees b = true ↔ a.withOneZero = b.withOneZero := by
  cases a <;> cases b <;> simp [agrees, withOneZero, Binary64.units_eq_iff]

namespace Document

mutual

/-- The tree, with zero in place of every minus zero. -/
def withOneZero : Document → Document
  | .number n => .number n.withOneZero
  | .array items => .array (itemsWithOneZero items)
  | .object members => .object (membersWithOneZero members)
  | document => document

/-- The trees of a list, with zero in place of every minus zero. -/
def itemsWithOneZero : List Document → List Document
  | [] => []
  | item :: items => item.withOneZero :: itemsWithOneZero items

/-- The members of a list, with zero in place of every minus zero. -/
def membersWithOneZero : List (String × Document) → List (String × Document)
  | [] => []
  | (key, item) :: members => (key, item.withOneZero) :: membersWithOneZero members

end

mutual

/-- **Agreement is equality with one zero**, by induction on the two trees together. -/
theorem agrees_iff : ∀ {a b : Document}, a.Canonical →
    (a.agrees b = true ↔ a.withOneZero = b.withOneZero)
  | .null, b, _ | .bool _, b, _ | .string _, b, _ => by
    cases b <;> simp [agrees, withOneZero]
  | .number a, b, _ => by
    cases b <;> simp [agrees, withOneZero, Number.agrees_iff]
  | .array as, b, h => by
    cases b with
    | array bs => simp only [agrees, withOneZero, agreesItems_iff h, Document.array.injEq]
    | _ => simp [agrees, withOneZero]
  | .object as, b, h => by
    cases b with
    | object bs => simp only [agrees, withOneZero, agreesMembers_iff h.2, Document.object.injEq]
    | _ => simp [agrees, withOneZero]

theorem agreesItems_iff : ∀ {as bs : List Document}, CanonicalItems as →
    (agreesItems as bs = true ↔ itemsWithOneZero as = itemsWithOneZero bs)
  | [], [], _ | [], _ :: _, _ | _ :: _, [], _ => by simp [agreesItems, itemsWithOneZero]
  | a :: as, b :: bs, h => by
    simp only [agreesItems, itemsWithOneZero, Bool.and_eq_true, List.cons.injEq,
      agrees_iff h.1, agreesItems_iff h.2]

theorem agreesMembers_iff : ∀ {as bs : List (String × Document)}, CanonicalMembers as →
    (agreesMembers as bs = true ↔ membersWithOneZero as = membersWithOneZero bs)
  | [], [], _ | [], _ :: _, _ | _ :: _, [], _ => by simp [agreesMembers, membersWithOneZero]
  | (key, a) :: as, (name, b) :: bs, h => by
    simp only [agreesMembers, membersWithOneZero, Bool.and_eq_true, decide_eq_true_eq,
      List.cons.injEq, Prod.mk.injEq, agrees_iff h.1, agreesMembers_iff h.2]

end

end Document

/-- Values agree if they are equal with one zero. -/
theorem Value.agrees_iff (a b : Value) :
    a.agrees b = true ↔ a.document.withOneZero = b.document.withOneZero :=
  Document.agrees_iff a.canonical

end Json

end SceneLogic

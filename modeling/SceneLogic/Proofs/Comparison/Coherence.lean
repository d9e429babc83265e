import SceneLogic.Comparison
import SceneLogic.Proofs.Json.Agreement

/-!
# The operators are coherent

Equality of values is put together from two relations: bare numbers are equal if they are of one
size, an integer and a float too, and anything else if it agrees, where an integer and a float
inside a list are different.  The two never meet, because a number agrees with numbers only.  So
equality is equality of one measure: the size of a number, and the tree with one zero of anything
else.  Hence it is an equivalence.  The orderings are those of the sizes, and hold of numbers
only.

## Main definitions

* `Json.Value.IsNumber` — the value is a bare number.
* `Comparison.size` — the size of a number.
* `Comparison.measure` — what equality looks at.
* `Coherent` — how the operators fit together, for three values.

## Main statements

* `Comparison.holds_iff_of_isNumber`, `Comparison.holds_ordering_iff` — comparisons by size.
* `Comparison.holds_equal_iff` — equality is equality of measures.
* `compare?_coherent` — the operators fit together on all values.
-/

namespace SceneLogic

open Json

/-- The value is a bare number. -/
def Json.Value.IsNumber (value : Value) : Prop := ∃ n, value.document = .number n

/-- The operators there are. -/
def operators : List String := ["==", "=", "!=", "<", "<=", ">", ">="]

namespace Comparison

/-- An operator that is not in the list denotes nothing. -/
theorem ofSign?_eq_none_iff (sign : String) : ofSign? sign = none ↔ sign ∉ operators := by
  unfold ofSign?
  split <;> simp_all [operators]

variable {a b c : Value} {x : Binary64}

/-! ## Sizes -/

/-- The size of a number; of anything else it does not count. -/
def size (value : Value) : Int := (number? value).elim 0 (·.units)

theorem size_of_number (h : number? a = some x) : size a = x.units := by rw [size, h, Option.elim]

theorem isNumber_iff : a.IsNumber ↔ ∃ x, number? a = some x := by
  unfold Value.IsNumber number?
  split
  next n h => simp [h]
  next h => exact iff_of_false (fun ⟨n, hn⟩ => h n hn) (by simp)

theorem not_isNumber_of_none (h : number? a = none) : ¬a.IsNumber := by simp [isNumber_iff, h]

/-- Numbers are compared by size. -/
theorem holds_iff_of_isNumber (ha : a.IsNumber) (hb : b.IsNumber) (comparison : Comparison) :
    comparison.Holds a b ↔ comparison.HoldsOfSizes (size a) (size b) := by
  obtain ⟨x, hx⟩ := isNumber_iff.1 ha
  obtain ⟨y, hy⟩ := isNumber_iff.1 hb
  simp only [Holds, hx, hy, size_of_number hx, size_of_number hy]

/-! ## Equality -/

/-- What equality looks at: the size of a number, and the tree with one zero of anything else. -/
def measure (value : Value) : Int ⊕ Document :=
  match number? value with
  | some x => .inl x.units
  | none => .inr value.document.withOneZero

/-- A number agrees with numbers only. -/
theorem isNumber_iff_of_agrees (h : a.agrees b = true) : a.IsNumber ↔ b.IsNumber := by
  rw [Value.agrees_iff] at h
  unfold Value.IsNumber
  constructor
  · rintro ⟨n, hn⟩
    rw [hn] at h
    cases hb : b.document <;> simp [hb, Document.withOneZero] at h ⊢
  · rintro ⟨n, hn⟩
    rw [hn] at h
    cases ha : a.document <;> simp [ha, Document.withOneZero] at h ⊢

/-- **Equality is equality of measures.** -/
theorem holds_equal_iff (a b : Value) : equal.Holds a b ↔ measure a = measure b := by
  cases ha : number? a <;> cases hb : number? b <;> simp only [Holds, measure, ha, hb]
  case none.none => rw [Sum.inr.injEq, Value.agrees_iff]
  case none.some y =>
    refine iff_of_false (fun h => not_isNumber_of_none ha ?_) nofun
    exact (isNumber_iff_of_agrees h).2 (isNumber_iff.2 ⟨y, hb⟩)
  case some.none x =>
    refine iff_of_false (fun h => not_isNumber_of_none hb ?_) nofun
    exact (isNumber_iff_of_agrees h).1 (isNumber_iff.2 ⟨x, ha⟩)
  case some.some => rw [Sum.inl.injEq, HoldsOfSizes]

/-- Values are different if they are not equal. -/
theorem holds_different_iff (a b : Value) : different.Holds a b ↔ ¬equal.Holds a b := by
  cases ha : number? a <;> cases hb : number? b <;> simp [Holds, HoldsOfSizes, ha, hb]

/-! ## Orderings -/

/-- An ordering holds of two numbers if it holds of their sizes, and of nothing else. -/
theorem holds_ordering_iff {ordering : Comparison} (hequal : ordering ≠ .equal)
    (hdifferent : ordering ≠ .different) (a b : Value) :
    ordering.Holds a b ↔
      (a.IsNumber ∧ b.IsNumber) ∧ ordering.HoldsOfSizes (size a) (size b) := by
  by_cases hnumbers : a.IsNumber ∧ b.IsNumber
  · rw [holds_iff_of_isNumber hnumbers.1 hnumbers.2, and_iff_right hnumbers]
  · refine iff_of_false (fun h => hnumbers ?_) (fun h => hnumbers h.1)
    simp only [isNumber_iff]
    cases ha : number? a <;> cases hb : number? b <;> cases ordering <;> simp_all [Holds]

theorem holds_greater_iff (a b : Value) : greater.Holds a b ↔ less.Holds b a := by
  rw [holds_ordering_iff (by decide) (by decide), holds_ordering_iff (by decide) (by decide),
    and_comm (a := b.IsNumber)]
  rfl

theorem holds_lessOrEqual_trans (hab : lessOrEqual.Holds a b) (hbc : lessOrEqual.Holds b c) :
    lessOrEqual.Holds a c := by
  rw [holds_ordering_iff (by decide) (by decide)] at hab hbc ⊢
  exact ⟨⟨hab.1.1, hbc.1.2⟩, le_trans hab.2 hbc.2⟩

end Comparison

/-! ## Operators -/

/-- How the operators fit together, for three values. -/
structure Coherent (a b c : Value) : Prop where
  unknown : ∀ sign, compare? a sign b = none ↔ sign ∉ operators
  refl : compare? a "==" a = some true
  symm : compare? a "==" b = compare? b "==" a
  trans : compare? a "==" b = some true → compare? b "==" c = some true →
    compare? a "==" c = some true
  same : compare? a "=" b = compare? a "==" b
  different : compare? a "!=" b = (compare? a "==" b).map not
  converse : compare? a ">" b = compare? b "<" a
  trichotomy : a.IsNumber → b.IsNumber →
    ∃! sign, sign ∈ ["<", "==", ">"] ∧ compare? a sign b = some true
  lessOrEqual : a.IsNumber → b.IsNumber → (compare? a "<=" b = some true ↔
    compare? a "<" b = some true ∨ compare? a "==" b = some true)
  greaterOrEqual : a.IsNumber → b.IsNumber → (compare? a ">=" b = some true ↔
    compare? a ">" b = some true ∨ compare? a "==" b = some true)
  lessOrEqual_trans : compare? a "<=" b = some true → compare? b "<=" c = some true →
    compare? a "<=" c = some true
  unordered : ¬a.IsNumber ∨ ¬b.IsNumber → ∀ sign ∈ ["<", "<=", ">", ">="],
    compare? a sign b = some false

/-- What an operator answers is whether its comparison holds. -/
theorem compare?_eq_true_iff {sign : String} {comparison : Comparison}
    (hsign : Comparison.ofSign? sign = some comparison) (a b : Value) :
    compare? a sign b = some true ↔ comparison.Holds a b := by
  rw [compare?, hsign, Option.map_some, Option.some.injEq, decide_eq_true_iff]

/-- An operator whose comparison does not hold answers no. -/
theorem compare?_eq_false_iff {sign : String} {comparison : Comparison}
    (hsign : Comparison.ofSign? sign = some comparison) (a b : Value) :
    compare? a sign b = some false ↔ ¬comparison.Holds a b := by
  rw [compare?, hsign, Option.map_some, Option.some.injEq, decide_eq_false_iff_not]

section Numbers

open Comparison

variable {a b : Value} (ha : a.IsNumber) (hb : b.IsNumber)

include ha hb

/-- What an operator answers for two numbers is what it says of their sizes. -/
theorem compare?_eq_true_iff_of_isNumber {sign : String} (comparison : Comparison)
    (hsign : ofSign? sign = some comparison) :
    compare? a sign b = some true ↔ comparison.HoldsOfSizes (size a) (size b) := by
  rw [compare?_eq_true_iff hsign, holds_iff_of_isNumber ha hb]

theorem compare?_equal_iff : compare? a "==" b = some true ↔ size a = size b :=
  compare?_eq_true_iff_of_isNumber ha hb .equal rfl

theorem compare?_less_iff : compare? a "<" b = some true ↔ size a < size b :=
  compare?_eq_true_iff_of_isNumber ha hb .less rfl

theorem compare?_greater_iff : compare? a ">" b = some true ↔ size b < size a :=
  compare?_eq_true_iff_of_isNumber ha hb .greater rfl

/-- Of two numbers the one is less, equal or greater, and only one of these. -/
theorem existsUnique_compare? :
    ∃! sign, sign ∈ ["<", "==", ">"] ∧ compare? a sign b = some true := by
  have honly : ∀ sign ∈ ["<", "==", ">"], compare? a sign b = some true →
      sign = "<" ∧ size a < size b ∨ sign = "==" ∧ size a = size b ∨
        sign = ">" ∧ size b < size a := by
    simp [compare?_less_iff ha hb, compare?_equal_iff ha hb, compare?_greater_iff ha hb]
  rcases lt_trichotomy (size a) (size b) with h | h | h
  · refine ⟨"<", ⟨by simp, (compare?_less_iff ha hb).2 h⟩, fun sign ⟨hmem, hholds⟩ => ?_⟩
    rcases honly sign hmem hholds with hsign | hsign | hsign <;> [exact hsign.1; omega; omega]
  · refine ⟨"==", ⟨by simp, (compare?_equal_iff ha hb).2 h⟩, fun sign ⟨hmem, hholds⟩ => ?_⟩
    rcases honly sign hmem hholds with hsign | hsign | hsign <;> [omega; exact hsign.1; omega]
  · refine ⟨">", ⟨by simp, (compare?_greater_iff ha hb).2 h⟩, fun sign ⟨hmem, hholds⟩ => ?_⟩
    rcases honly sign hmem hholds with hsign | hsign | hsign <;> [omega; omega; exact hsign.1]

theorem compare?_lessOrEqual_iff : compare? a "<=" b = some true ↔
    compare? a "<" b = some true ∨ compare? a "==" b = some true := by
  rw [compare?_eq_true_iff_of_isNumber ha hb .lessOrEqual rfl, compare?_less_iff ha hb,
    compare?_equal_iff ha hb]
  exact le_iff_lt_or_eq

theorem compare?_greaterOrEqual_iff : compare? a ">=" b = some true ↔
    compare? a ">" b = some true ∨ compare? a "==" b = some true := by
  rw [compare?_eq_true_iff_of_isNumber ha hb .greaterOrEqual rfl, compare?_greater_iff ha hb,
    compare?_equal_iff ha hb, eq_comm]
  exact le_iff_lt_or_eq

end Numbers

/-- No ordering holds of anything but two numbers. -/
theorem compare?_eq_false_of_not_isNumber {a b : Value} (h : ¬a.IsNumber ∨ ¬b.IsNumber) :
    ∀ sign ∈ ["<", "<=", ">", ">="], compare? a sign b = some false := by
  have hnot {ordering : Comparison} (hequal : ordering ≠ .equal)
      (hdifferent : ordering ≠ .different) : ¬ordering.Holds a b := by
    rw [Comparison.holds_ordering_iff hequal hdifferent]
    tauto
  simp only [List.forall_mem_cons]
  refine ⟨?less, ?lessOrEqual, ?greater, ?greaterOrEqual, nofun⟩
  all_goals exact (compare?_eq_false_iff rfl a b).2 (hnot (by decide) (by decide))

/-- **The operators are coherent**, on all values.  There are seven operators, whatever they are
applied to.  Equality is an equivalence, it has two signs, and what is not equal is different.
The orderings are converse to each other.  Of two numbers exactly one is less than, equal to or
greater than the other, and the weak orderings are the strict ones or equality; they are
transitive.  No ordering holds of anything but two numbers. -/
theorem compare?_coherent (a b c : Value) : Coherent a b c where
  unknown sign := Option.map_eq_none_iff.trans (Comparison.ofSign?_eq_none_iff sign)
  refl := (compare?_eq_true_iff rfl a a).2 ((Comparison.holds_equal_iff a a).2 rfl)
  symm := by
    have hsymm : Comparison.equal.Holds a b ↔ Comparison.equal.Holds b a := by
      rw [Comparison.holds_equal_iff, Comparison.holds_equal_iff, eq_comm]
    exact congrArg some (decide_eq_decide.2 hsymm)
  trans hab hbc := by
    rw [compare?_eq_true_iff rfl, Comparison.holds_equal_iff] at hab hbc ⊢
    exact hab.trans hbc
  same := rfl
  different := congrArg some
    ((decide_eq_decide.2 (Comparison.holds_different_iff a b)).trans (decide_not))
  converse := congrArg some (decide_eq_decide.2 (Comparison.holds_greater_iff a b))
  trichotomy := existsUnique_compare?
  lessOrEqual := compare?_lessOrEqual_iff
  greaterOrEqual := compare?_greaterOrEqual_iff
  lessOrEqual_trans hab hbc := by
    rw [compare?_eq_true_iff rfl] at hab hbc ⊢
    exact Comparison.holds_lessOrEqual_trans hab hbc
  unordered := compare?_eq_false_of_not_isNumber

/-- An odd integer of 54 bits is equal to a float, and the float to the even integer before. -/
theorem compare?_coherent_of_odd :
    let odd : Value := ⟨.number (.integer 9007199254740993 (by decide)), trivial⟩
    let float : Value := ⟨.number (.float (.ofInt 9007199254740992)), trivial⟩
    let even : Value := ⟨.number (.integer 9007199254740992 (by decide)), trivial⟩
    compare? odd "==" float = some true ∧ compare? float "==" even = some true ∧
      compare? odd "==" even = some true ∧
      ∃! sign, sign ∈ ["<", "==", ">"] ∧ compare? odd sign float = some true := by
  intro odd float even
  have hodd : compare? odd "==" float = some true := by decide +kernel
  have heven : compare? float "==" even = some true := by decide +kernel
  have hcoherent := compare?_coherent odd float even
  exact ⟨hodd, heven, hcoherent.trans hodd heven, hcoherent.trichotomy ⟨_, rfl⟩ ⟨_, rfl⟩⟩

end SceneLogic

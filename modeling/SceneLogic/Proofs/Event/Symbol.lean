import Mathlib.Algebra.Group.Nat.Defs
import SceneLogic.Event.Basic
import SceneLogic.Event.Symbol

/-!
# Symbols can be read apart

The characters of a name are written so that none begins another, and none begins like the
separator of two underscores or like the end of the text.  So a written name is read back up
to wherever a separator or the end follows it, and a symbol tells the scope from the name.

## Main definitions

* `EndsName` — what may follow a name in a symbol.

## Main statements

* `flatMap_mangleChar_append_inj` — names that are followed by an end are read apart.
* `symbols_never_collide` — different functions have different symbols.
-/

namespace SceneLogic

/-! ## Hexadecimal digits -/

theorem mem_hexDigits {width n : Nat} {c : Char} (hmem : c ∈ hexDigits width n) :
    ∃ digit < 16, c = Nat.digitChar digit := by
  induction width generalizing n with
  | zero => simp [hexDigits] at hmem
  | succ width ih =>
    rw [hexDigits, List.mem_append, List.mem_singleton] at hmem
    rcases hmem with hmem | rfl
    · exact ih hmem
    · exact ⟨n % 16, Nat.mod_lt n (by decide), rfl⟩

theorem isAlphanum_digitChar : ∀ digit < 16, (Nat.digitChar digit).isAlphanum = true := by
  decide

theorem isAlphanum_of_mem_hexDigits {width n : Nat} {c : Char} (hmem : c ∈ hexDigits width n) :
    c.isAlphanum = true := by
  obtain ⟨digit, hlt, rfl⟩ := mem_hexDigits hmem
  exact isAlphanum_digitChar digit hlt

theorem digitChar_inj : ∀ digit < 16, ∀ other < 16,
    Nat.digitChar digit = Nat.digitChar other → digit = other := by
  decide

@[simp] theorem length_hexDigits (width n : Nat) : (hexDigits width n).length = width := by
  induction width generalizing n with
  | zero => rfl
  | succ width ih => rw [hexDigits, List.length_append, ih, List.length_singleton]

/-- Numbers that fit a width are told apart by their digits. -/
theorem hexDigits_inj {width n m : Nat} (hn : n < 16 ^ width) (hm : m < 16 ^ width)
    (h : hexDigits width n = hexDigits width m) : n = m := by
  induction width generalizing n m with
  | zero => omega
  | succ width ih =>
    rw [Nat.pow_succ] at hn hm
    obtain ⟨hhigh, hlow⟩ := List.append_inj h (by simp)
    have hquotient : n / 16 = m / 16 := ih (by omega) (by omega) hhigh
    have hremainder : n % 16 = m % 16 :=
      digitChar_inj _ (Nat.mod_lt n (by decide)) _ (Nat.mod_lt m (by decide)) (by simpa using hlow)
    omega

/-- Six digits are enough for every code point. -/
theorem toNat_lt_width (c : Char) : c.toNat < 16 ^ 6 := by
  have hvalid := c.valid
  simp only [UInt32.isValidChar, Nat.isValidChar] at hvalid
  rw [Char.toNat]
  omega

/-! ## Single characters -/

theorem ne_underscore_of_isAlphanum {c : Char} (hc : c.isAlphanum = true) : c ≠ '_' := by
  rintro rfl
  revert hc
  decide

/-- The first digit of an escape, which is no underscore. -/
theorem exists_hexDigits_eq_cons (n : Nat) :
    ∃ first digits, hexDigits 6 n = first :: digits ∧ first ≠ '_' := by
  cases h : hexDigits 6 n with
  | nil =>
    have hlength := length_hexDigits 6 n
    rw [h] at hlength
    cases hlength
  | cons first digits =>
    have hfirst : first ∈ hexDigits 6 n := h ▸ List.mem_cons_self
    exact ⟨first, digits, rfl,
      ne_underscore_of_isAlphanum (isAlphanum_of_mem_hexDigits hfirst)⟩

/-- What stands for one character never begins what stands for another. -/
theorem mangleChar_append_inj {c other : Char} {rest rest' : List Char}
    (h : mangleChar c ++ rest = mangleChar other ++ rest') : c = other ∧ rest = rest' := by
  unfold mangleChar at h
  split at h
  next hc =>
    split at h
    next => exact List.cons.inj h
    next => exact absurd (List.cons.inj h).1 (ne_underscore_of_isAlphanum hc)
  next =>
    split at h
    next hother => exact absurd (List.cons.inj h).1.symm (ne_underscore_of_isAlphanum hother)
    next =>
      obtain ⟨hdigits, hrest⟩ := List.append_inj (List.cons.inj h).2 (by simp)
      have hcode := hexDigits_inj (toNat_lt_width c) (toNat_lt_width other) hdigits
      exact ⟨Char.toNat_inj.1 hcode, hrest⟩

/-! ## Names -/

/-- What may follow a name in a symbol: nothing, or a separator. -/
def EndsName (rest : List Char) : Prop := rest = [] ∨ ∃ after, rest = '_' :: '_' :: after

/-- Where a name ends no character of it goes on. -/
theorem not_endsName_mangleChar_append (c : Char) (rest : List Char) :
    ¬ EndsName (mangleChar c ++ rest) := by
  rintro (h | ⟨after, h⟩)
  · unfold mangleChar at h
    split at h <;> cases h
  · unfold mangleChar at h
    split at h
    next hc => exact ne_underscore_of_isAlphanum hc (List.cons.inj h).1
    next =>
      obtain ⟨first, digits, hdigits, hfirst⟩ := exists_hexDigits_eq_cons c.toNat
      rw [hdigits] at h
      exact hfirst (List.cons.inj (List.cons.inj h).2).1

/-- **A written name is read back up to its end.** -/
theorem flatMap_mangleChar_append_inj {name other rest rest' : List Char} (hrest : EndsName rest)
    (hrest' : EndsName rest')
    (h : name.flatMap mangleChar ++ rest = other.flatMap mangleChar ++ rest') :
    name = other ∧ rest = rest' := by
  induction name generalizing other with
  | nil =>
    cases other with
    | nil => exact ⟨rfl, h⟩
    | cons d other =>
      rw [List.flatMap_nil, List.nil_append, List.flatMap_cons, List.append_assoc] at h
      exact absurd (h ▸ hrest) (not_endsName_mangleChar_append _ _)
  | cons c name ih =>
    cases other with
    | nil =>
      rw [List.flatMap_nil, List.nil_append, List.flatMap_cons, List.append_assoc] at h
      exact absurd (h ▸ hrest') (not_endsName_mangleChar_append _ _)
    | cons d other =>
      rw [List.flatMap_cons, List.flatMap_cons, List.append_assoc, List.append_assoc] at h
      obtain ⟨rfl, htail⟩ := mangleChar_append_inj h
      obtain ⟨rfl, hends⟩ := ih htail
      exact ⟨rfl, hends⟩

theorem toList_mangleName (name : String) :
    (mangleName name).toList = name.toList.flatMap mangleChar := by
  rw [mangleName, String.toList_ofList]

theorem mangleName_inj {name other : String} :
    mangleName name = mangleName other ↔ name = other := by
  refine ⟨fun h => ?_, congrArg mangleName⟩
  have hlists := congrArg String.toList h
  rw [toList_mangleName, toList_mangleName, ← List.append_nil (name.toList.flatMap _),
    ← List.append_nil (other.toList.flatMap _)] at hlists
  exact String.toList_inj.1 (flatMap_mangleChar_append_inj (.inl rfl) (.inl rfl) hlists).1

theorem toList_functionSymbol (scope name : String) :
    (functionSymbol scope name).toList =
      "evfn__".toList ++ (scope.toList.flatMap mangleChar ++
        '_' :: '_' :: (name.toList.flatMap mangleChar)) := by
  simp [functionSymbol, toList_mangleName]

/-- A symbol tells the scope and the name of its function. -/
theorem functionSymbol_inj {scope other name name' : String} :
    functionSymbol scope name = functionSymbol other name' ↔ scope = other ∧ name = name' := by
  constructor
  · intro h
    have hlists := congrArg String.toList h
    rw [toList_functionSymbol, toList_functionSymbol] at hlists
    have hparts := flatMap_mangleChar_append_inj (.inr ⟨_, rfl⟩) (.inr ⟨_, rfl⟩)
      (List.append_cancel_left hlists)
    have hnames : name.toList.flatMap mangleChar ++ [] = name'.toList.flatMap mangleChar ++ [] := by
      simpa using hparts.2
    exact ⟨String.toList_inj.1 hparts.1,
      String.toList_inj.1 (flatMap_mangleChar_append_inj (.inl rfl) (.inl rfl) hnames).1⟩
  · rintro ⟨rfl, rfl⟩
    rfl

/-! ## The characters of symbols -/

/-- A written name consists of letters, digits and underscores. -/
theorem mem_mangleName {name : String} {c : Char} (hmem : c ∈ (mangleName name).toList) :
    c.isAlphanum = true ∨ c = '_' := by
  rw [toList_mangleName, List.mem_flatMap] at hmem
  obtain ⟨written, -, hmem⟩ := hmem
  unfold mangleChar at hmem
  split at hmem
  next halphanum =>
    rw [List.mem_singleton] at hmem
    exact .inl (hmem ▸ halphanum)
  next =>
    rcases List.mem_cons.1 hmem with rfl | hmem
    · exact .inr rfl
    · exact .inl (isAlphanum_of_mem_hexDigits hmem)

/-- Letters and digits are those of ASCII. -/
theorem isAlphanum_iff {c : Char} : c.isAlphanum = true ↔
    ('A' ≤ c ∧ c ≤ 'Z') ∨ ('a' ≤ c ∧ c ≤ 'z') ∨ ('0' ≤ c ∧ c ≤ '9') := by
  delta Char.isAlphanum Char.isAlpha Char.isUpper Char.isLower Char.isDigit
  simp [Char.le_def, or_assoc]

/-- In front of a text without two underscores in a row, letters and digits make none. -/
theorem not_infix_append {written rest : List Char}
    (hwritten : ∀ c ∈ written, c.isAlphanum = true) (hrest : ¬ ['_', '_'] <:+: rest) :
    ¬ ['_', '_'] <:+: written ++ rest := by
  induction written with
  | nil => exact hrest
  | cons c written ih =>
    rw [List.forall_mem_cons] at hwritten
    rw [List.cons_append, List.infix_cons_iff, not_or, List.cons_prefix_cons]
    exact ⟨fun h => ne_underscore_of_isAlphanum hwritten.1 h.1.symm, ih hwritten.2⟩

theorem not_infix_mangleChar_append (c : Char) {rest : List Char}
    (hrest : ¬ ['_', '_'] <:+: rest) : ¬ ['_', '_'] <:+: mangleChar c ++ rest := by
  unfold mangleChar
  split
  next hc => exact not_infix_append (by simpa using hc) hrest
  next =>
    have hdigits : ¬ ['_', '_'] <:+: hexDigits 6 c.toNat ++ rest :=
      not_infix_append (fun _ => isAlphanum_of_mem_hexDigits) hrest
    obtain ⟨first, digits, hfirst, hne⟩ := exists_hexDigits_eq_cons c.toNat
    rw [List.cons_append, List.infix_cons_iff, not_or]
    refine ⟨fun hprefix => ?_, hdigits⟩
    rw [hfirst, List.cons_append, List.cons_prefix_cons, List.cons_prefix_cons] at hprefix
    exact hne hprefix.2.1.symm

/-- A written name never holds the separator. -/
theorem not_infix_mangleName (name : String) : ¬ ['_', '_'] <:+: (mangleName name).toList := by
  rw [toList_mangleName]
  induction name.toList with
  | nil => simp
  | cons c rest ih => exact not_infix_mangleChar_append c ih

/-- What stands for a character ends with a letter or a digit. -/
theorem exists_mangleChar_eq_append (c : Char) :
    ∃ start last, mangleChar c = start ++ [last] ∧ last.isAlphanum = true := by
  unfold mangleChar
  split
  next hc => exact ⟨[], c, rfl, hc⟩
  next =>
    exact ⟨'_' :: hexDigits 5 (c.toNat / 16), Nat.digitChar (c.toNat % 16), rfl,
      isAlphanum_digitChar _ (Nat.mod_lt _ (by decide))⟩

theorem getLast?_mangleName_ne (name : String) :
    (mangleName name).toList.getLast? ≠ some '_' := by
  rw [toList_mangleName]
  rcases List.eq_nil_or_concat name.toList with h | ⟨front, c, h⟩
  · simp [h]
  · obtain ⟨start, last, hlast, halphanum⟩ := exists_mangleChar_eq_append c
    have hwritten : name.toList.flatMap mangleChar =
        front.flatMap mangleChar ++ start ++ [last] := by
      simp [h, hlast]
    rw [hwritten, List.getLast?_concat, ne_eq, Option.some.injEq]
    exact ne_underscore_of_isAlphanum halphanum

/-- **Symbols never collide.**  Two functions, each with the scope that it stands in, have
the same symbol exactly if the scopes have the same name and so have the functions, whatever
characters are in the names.  Different names are written differently, and a written name
consists of ASCII letters, digits and underscores, has no two underscores in a row and does
not end with one. -/
theorem symbols_never_collide :
    (∀ (scope other : String) (first second : Function),
      functionSymbol scope first.signature.name = functionSymbol other second.signature.name ↔
        scope = other ∧ first.signature.name = second.signature.name) ∧
    (∀ name other : String, mangleName name = mangleName other ↔ name = other) ∧
    ∀ name : String,
      (∀ c ∈ (mangleName name).toList, ('A' ≤ c ∧ c ≤ 'Z') ∨ ('a' ≤ c ∧ c ≤ 'z') ∨
        ('0' ≤ c ∧ c ≤ '9') ∨ c = '_') ∧
      ¬ ['_', '_'] <:+: (mangleName name).toList ∧
      (mangleName name).toList.getLast? ≠ some '_' := by
  refine ⟨fun _ _ _ _ => functionSymbol_inj, fun _ _ => mangleName_inj, fun name =>
    ⟨fun c hmem => ?_, not_infix_mangleName name, getLast?_mangleName_ne name⟩⟩
  rcases mem_mangleName hmem with hc | rfl
  · rcases isAlphanum_iff.1 hc with hupper | hlower | hdigit
    · exact .inl hupper
    · exact .inr (.inl hlower)
    · exact .inr (.inr (.inl hdigit))
  · exact .inr (.inr (.inr rfl))

end SceneLogic

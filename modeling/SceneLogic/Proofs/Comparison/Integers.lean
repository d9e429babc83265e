import SceneLogic.Proofs.Execution.Builtin
import SceneLogic.Proofs.Number.Nearest
import SceneLogic.Proofs.Objects.Picking

/-!
# Comparing integers

Integers are compared as the floats they go to.  These keep the order of the integers, so a
comparison never turns it round; but different integers may go to one float, and then they count
as equal.  Where they do not, all operators answer as they would for the integers.  That is so
if one of them has at most 53 bits, or if they differ in sign.

The conditions that compare a variable with a value inherit both: an integer passes for another
one only if the two go to one float.

## Main definitions

* `Json.Value.ofInteger` — an integer of 64 bits as a value.
* `ToldApart` — the two integers go to one float only if they are equal.
* `ComparedExactly` — all operators answer as for integers.
* `TestedExactly` — so do the conditions that ask for a value.

## Main statements

* `Registry.execute_compareVariable`, `Registry.execute_varEquals` — what the two conditions
  answer and what they leave.
* `compare?_integers` — when integers are compared exactly, and what always holds.
* `compare?_integers_ne` — two neighbours that count as equal, though lists of them do not.
-/

namespace SceneLogic

open Json

/-- An integer of 64 bits, signed or unsigned, as a value. -/
def Json.Value.ofInteger (n : Int) (fits : FitsWord n) : Value :=
  ⟨.number (.integer n fits), trivial⟩

/-- The two integers go to one float only if they are equal. -/
def ToldApart (a b : Int) : Prop := (Binary64.ofInt a).units = (Binary64.ofInt b).units → a = b

/-- All operators answer for two values as they would for two integers. -/
structure ComparedExactly (x y : Value) (a b : Int) : Prop where
  equal : compare? x "==" y = some (decide (a = b))
  same : compare? x "=" y = some (decide (a = b))
  different : compare? x "!=" y = some (decide (a ≠ b))
  less : compare? x "<" y = some (decide (a < b))
  lessOrEqual : compare? x "<=" y = some (decide (a ≤ b))
  greater : compare? x ">" y = some (decide (a > b))
  greaterOrEqual : compare? x ">=" y = some (decide (a ≥ b))

/-! ## Sizes -/

section Sizes

variable {a b : Int}

theorem natAbs_lt_of_fitsWord (fits : FitsWord a) : a.natAbs < 2 ^ 64 := by omega

/-- The floats keep the order of the integers. -/
theorem units_ofInt_mono (ha : FitsWord a) (hb : FitsWord b) (hle : a ≤ b) :
    (Binary64.ofInt a).units ≤ (Binary64.ofInt b).units :=
  (Binary64.units_le_units_iff _ _).2
    (Binary64.toRat_ofInt_mono (natAbs_lt_of_fitsWord ha) (natAbs_lt_of_fitsWord hb) hle)

theorem ToldApart.symm (h : ToldApart a b) : ToldApart b a := fun heq => (h heq.symm).symm

/-- The order of integers that are told apart can be read off from the floats. -/
theorem ToldApart.units_le_iff (h : ToldApart a b) (ha : FitsWord a) (hb : FitsWord b) :
    (Binary64.ofInt a).units ≤ (Binary64.ofInt b).units ↔ a ≤ b := by
  refine ⟨fun hfloats => ?_, units_ofInt_mono ha hb⟩
  by_contra! hlt
  have heq := hfloats.antisymm (units_ofInt_mono hb ha hlt.le)
  exact hlt.ne' (h heq)

theorem toldApart_of_units_lt (h : (Binary64.ofInt a).units < (Binary64.ofInt b).units) :
    ToldApart a b := fun heq => absurd heq h.ne

/-- Small integers are told apart from all others, and so are integers of different signs. -/
theorem toldApart_of_small (ha : FitsWord a) (hb : FitsWord b)
    (hsmall : a.natAbs < 2 ^ 53 ∨ b.natAbs < 2 ^ 53 ∨ a.sign ≠ b.sign) : ToldApart a b := by
  have hlt {m n : Int} (hm : FitsWord m) (hn : FitsWord n)
      (hsmall : m.natAbs < 2 ^ 53 ∨ n.natAbs < 2 ^ 53 ∨ m.sign ≠ n.sign) (hlt : m < n) :
      ToldApart m n := by
    have hfloats := Binary64.toRat_ofInt_lt_of_small (natAbs_lt_of_fitsWord hm)
      (natAbs_lt_of_fitsWord hn) hsmall hlt
    refine toldApart_of_units_lt (lt_of_not_ge fun hge => ?_)
    exact hfloats.not_ge ((Binary64.units_le_units_iff _ _).1 hge)
  rcases lt_trichotomy a b with h | rfl | h
  · exact hlt ha hb hsmall h
  · exact fun _ => rfl
  · exact (hlt hb ha (by tauto) h).symm

end Sizes

/-! ## Operators -/

section Operators

variable {a b : Int} (ha : FitsWord a) (hb : FitsWord b)

/-- Integers are compared by the sizes of the floats they go to. -/
theorem compare?_ofInteger (sign : String) :
    compare? (.ofInteger a ha) sign (.ofInteger b hb) = (Comparison.ofSign? sign).map
      fun comparison => decide
        (comparison.HoldsOfSizes (Binary64.ofInt a).units (Binary64.ofInt b).units) := by
  rfl

include ha hb in
/-- Integers that are told apart have floats in the same order. -/
theorem holdsOfSizes_iff_of_toldApart (happart : ToldApart a b) (comparison : Comparison) :
    comparison.HoldsOfSizes (Binary64.ofInt a).units (Binary64.ofInt b).units ↔
      comparison.HoldsOfSizes a b := by
  have hle := happart.units_le_iff ha hb
  have hge := happart.symm.units_le_iff hb ha
  cases comparison <;> simp only [Comparison.HoldsOfSizes] <;> omega

/-- Integers are compared exactly where they are told apart, and nowhere else. -/
theorem toldApart_iff_comparedExactly :
    ToldApart a b ↔ ComparedExactly (.ofInteger a ha) (.ofInteger b hb) a b := by
  constructor
  · intro happart
    have hexact (sign : String) : compare? (.ofInteger a ha) sign (.ofInteger b hb) =
        (Comparison.ofSign? sign).map fun comparison => decide (comparison.HoldsOfSizes a b) := by
      simp only [compare?_ofInteger, holdsOfSizes_iff_of_toldApart ha hb happart]
    exact ⟨hexact "==", hexact "=", hexact "!=", hexact "<", hexact "<=", hexact ">", hexact ">="⟩
  · intro hexact heq
    have hequal := (compare?_ofInteger ha hb "==").symm.trans hexact.equal
    exact of_decide_eq_true ((Option.some.inj hequal).symm.trans (decide_eq_true heq))

/-- The order of two integers is never turned round. -/
theorem compare?_ofInteger_of_le (hle : a ≤ b) :
    compare? (.ofInteger a ha) "<=" (.ofInteger b hb) = some true ∧
      compare? (.ofInteger a ha) ">" (.ofInteger b hb) = some false := by
  have hfloats := units_ofInt_mono ha hb hle
  exact ⟨congrArg some (decide_eq_true hfloats), congrArg some (decide_eq_false hfloats.not_gt)⟩

end Operators

/-! ## Conditions -/

namespace Registry

/-- The condition on a variable of the scene that is set answers as the comparison does. -/
theorem execute_compareVariable {context : Context} {name : String} {current : Value}
    (hcurrent : context.scene.valueOf? (Expression.resolveName name) = some current)
    (sign value : String) (inverted : Bool) :
    builtin.execute ⟨"variables/Compare", [name, sign, value], inverted⟩ .condition context =
      ((Builtin.comparison current (Expression.resolveName sign) (Expression.resolve value)).result
        "variables/Compare", context) := by
  let instruction : Instruction := ⟨"variables/Compare", [name, sign, value], inverted⟩
  have hoffers : builtin.Offers instruction.operation .condition 3 Builtin.compareVariable :=
    ⟨_, (get?_builtin _).trans rfl, rfl, rfl⟩
  have hname : instruction.name? 0 = some (Expression.resolveName name) := rfl
  have hsign : instruction.name? 1 = some (Expression.resolveName sign) := rfl
  have hvalue : Builtin.valueAt instruction 2 = Expression.resolve value := rfl
  rw [hoffers.execute rfl]
  simp only [Builtin.compareVariable, Builtin.withName, hname, hsign, hvalue, hcurrent]
  rfl

/-- The condition on a variable of instances leaves, of the list of the object, the instances
that have the value. -/
theorem execute_varEquals (context : Context) (object key value : String) (inverted : Bool) :
    let name := Expression.resolveName object
    let left := (context.picking.filled name context.scene.objects).filter
      (Builtin.hasValue context.scene.objects (Expression.resolveName key)
        (Expression.resolve value))
    builtin.execute ⟨"objects/VarEquals", [object, key, value], inverted⟩ .condition context =
      (.ok (.truth !left.isEmpty),
        { context with picking := context.picking.insert name left }) := by
  intro name left
  let instruction : Instruction := ⟨"objects/VarEquals", [object, key, value], inverted⟩
  have hoffers : builtin.Offers instruction.operation .condition 3 Builtin.pickByVariable :=
    ⟨_, (get?_builtin _).trans rfl, rfl, rfl⟩
  have hname : instruction.name? 0 = some name := rfl
  have hkey : instruction.name? 1 = some (Expression.resolveName key) := rfl
  have hvalue : Builtin.valueAt instruction 2 = Expression.resolve value := rfl
  rw [hoffers.execute rfl]
  simp only [Builtin.pickByVariable, Builtin.withName, hname, hkey, hvalue, Picking.ensure_eq,
    NameMap.insert_insert]
  rfl

end Registry

/-- An instance whose variable is known has a value if the two are equal. -/
theorem Builtin.hasValue_eq {store : Store} {handle : Handle} {item : Instance} {key : String}
    {current : Value} (hitem : store.get? handle = some item)
    (hcurrent : item.bindings.get? key = some current) (value : Value) :
    Builtin.hasValue store key value handle = decide (Comparison.equal.Holds current value) := by
  simp only [hasValue, hitem, Option.bind_some, hcurrent]

/-- The conditions that ask whether a variable with one value has another one answer as they
would for two integers: the condition on a variable of the scene, and the condition on a variable
of instances, which keeps an instance in the list of the object or not. -/
structure TestedExactly (x y : Value) (a b : Int) : Prop where
  ofScene : ∀ (context : Context) (name sign value : String) (inverted : Bool),
    context.scene.valueOf? (Expression.resolveName name) = some x →
    Expression.resolveName sign = "==" ∨ Expression.resolveName sign = "=" →
    Expression.resolve value = y →
      Registry.builtin.execute ⟨"variables/Compare", [name, sign, value], inverted⟩ .condition
        context = (.ok (.truth (decide (a = b))), context)
  ofInstances : ∀ (context : Context) (object key value : String) (inverted : Bool),
    Expression.resolve value = y →
    let name := Expression.resolveName object
    let store := context.scene.objects
    ∃ left, Registry.builtin.execute ⟨"objects/VarEquals", [object, key, value], inverted⟩
        .condition context =
          (.ok (.truth !left.isEmpty),
            { context with picking := context.picking.insert name left }) ∧
      ∀ handle item, store.get? handle = some item →
        item.bindings.get? (Expression.resolveName key) = some x →
          (handle ∈ left ↔ handle ∈ context.picking.filled name store ∧ a = b)

/-- Integers that are told apart are told apart by the conditions. -/
theorem testedExactly_of_toldApart {a b : Int} (ha : FitsWord a) (hb : FitsWord b)
    (happart : ToldApart a b) :
    TestedExactly (.ofInteger a ha) (.ofInteger b hb) a b := by
  have hexact := (toldApart_iff_comparedExactly ha hb).1 happart
  constructor
  · intro context name sign value inverted hcurrent hsign hvalue
    have hcompare : compare? (.ofInteger a ha) (Expression.resolveName sign) (.ofInteger b hb) =
        some (decide (a = b)) := by
      rcases hsign with hsign | hsign
      · rw [hsign, hexact.equal]
      · rw [hsign, hexact.same]
    rw [Registry.execute_compareVariable hcurrent, hvalue, Builtin.comparison, hcompare]
    rfl
  · intro context object key value inverted hvalue name store
    refine ⟨_, Registry.execute_varEquals context object key value inverted, ?_⟩
    intro handle item hitem hcurrent
    have hholds : decide (Comparison.equal.Holds (.ofInteger a ha) (.ofInteger b hb)) =
        decide (a = b) := Option.some.inj hexact.equal
    rw [List.mem_filter, Builtin.hasValue_eq hitem hcurrent, hvalue, hholds, decide_eq_true_iff]

/-- **Comparing integers.**  Take two integers of 64 bits, with or without sign.  All operators
answer as they would for the integers if and only if the two go to one float only when they are
equal.  That is so if one of them has at most 53 bits or if they differ in sign, and then the
conditions that ask for a value tell a variable with the one from the other as well.  Whatever
the integers are, the lesser one is never greater. -/
theorem compare?_integers {a b : Int} (ha : FitsWord a) (hb : FitsWord b) :
    (ToldApart a b ↔ ComparedExactly (.ofInteger a ha) (.ofInteger b hb) a b) ∧
      (ToldApart a b → TestedExactly (.ofInteger a ha) (.ofInteger b hb) a b) ∧
      (a.natAbs < 2 ^ 53 ∨ b.natAbs < 2 ^ 53 ∨ a.sign ≠ b.sign → ToldApart a b) ∧
      (a ≤ b → compare? (.ofInteger a ha) "<=" (.ofInteger b hb) = some true ∧
        compare? (.ofInteger a ha) ">" (.ofInteger b hb) = some false) :=
  ⟨toldApart_iff_comparedExactly ha hb, testedExactly_of_toldApart ha hb,
    toldApart_of_small ha hb, compare?_ofInteger_of_le ha hb⟩

/-- Nothing but a coin and a variable, each with one integer. -/
def purse (n : Int) (fits : FitsWord n) : Scene :=
  { Scene.named "scene" with
    bindings := NameMap.empty.insert "gold" (.ofInteger n fits)
    objects := ((∅ : Store).insert
      { Instance.ofObject "Coin" with
        bindings := NameMap.empty.insert "worth" (.ofInteger n fits) }).2 }

/-- The greatest integer of 53 bits is less than the one after the next, and is not kept when
that one is asked for. -/
theorem compare?_integers_of_greatest :
    compare? (.ofInteger 9007199254740991 (by decide)) "<"
        (.ofInteger 9007199254740993 (by decide)) = some true ∧
      ∃ left, ⟨0, 0⟩ ∉ left ∧ Registry.builtin.execute
        ⟨"objects/VarEquals", ["Coin", "worth", "9007199254740993"], false⟩ .condition
        ⟨purse 9007199254740991 (by decide), ∅⟩ = (.ok (.truth !left.isEmpty),
          ⟨purse 9007199254740991 (by decide), (∅ : Picking).insert "Coin" left⟩) := by
  obtain ⟨hexact, htested, hsmall, -⟩ := compare?_integers
    (a := 9007199254740991) (b := 9007199254740993) (by decide) (by decide)
  have happart : ToldApart 9007199254740991 9007199254740993 := hsmall (.inl (by decide))
  have hobject : Expression.resolveName "Coin" = "Coin" := by decide +kernel
  obtain ⟨left, hexecute, hleft⟩ := (htested happart).ofInstances
    ⟨purse 9007199254740991 (by decide), ∅⟩ "Coin" "worth" "9007199254740993" false
    (by decide +kernel)
  rw [hobject] at hexecute hleft
  refine ⟨(hexact.1 happart).less, left, ?_, hexecute⟩
  rw [hleft ⟨0, 0⟩ _ rfl (by decide +kernel)]
  exact fun hkept => absurd hkept.2 (by decide)

/-- **Two neighbours that count as equal**: the least power of two beyond 53 bits and the integer
after it.  A variable with the one passes for the other.  Lists of them are different. -/
theorem compare?_integers_ne :
    let x : Value := .ofInteger 9007199254740992 (by decide)
    let y : Value := .ofInteger 9007199254740993 (by decide)
    compare? x "==" y = some true ∧ compare? x "<" y = some false ∧
      ¬ComparedExactly x y 9007199254740992 9007199254740993 ∧
      compare? ⟨.array [x.document], ⟨x.canonical, trivial⟩⟩ "=="
        ⟨.array [y.document], ⟨y.canonical, trivial⟩⟩ = some false ∧
      (Registry.builtin.execute ⟨"variables/Compare", ["gold", "==", "9007199254740993"], false⟩
          .condition ⟨purse 9007199254740992 (by decide), ∅⟩).1 = .ok (.truth true) ∧
      (Registry.builtin.execute ⟨"objects/VarEquals", ["Coin", "worth", "9007199254740993"], false⟩
          .condition ⟨purse 9007199254740992 (by decide), ∅⟩).1 = .ok (.truth true) := by
  intro x y
  have hequal : compare? x "==" y = some true := by decide +kernel
  refine ⟨hequal, by decide +kernel, fun hexact => ?_, by decide +kernel, by decide +kernel,
    by decide +kernel⟩
  have hdecide := hequal.symm.trans hexact.equal
  exact absurd hdecide (by decide)

end SceneLogic

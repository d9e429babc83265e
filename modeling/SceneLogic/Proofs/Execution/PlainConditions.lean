import SceneLogic.Execution.Run
import SceneLogic.Proofs.Execution.Builtin
import SceneLogic.Proofs.Objects.Picking
import SceneLogic.Proofs.Objects.StoreHistory

/-!
# The order of plain conditions

Conditions on variables ask the scene, which no condition changes.  Conditions on the variables
of instances keep, of one list, the instances that pass a test, and hold when one is left.  When
two of them that test the same list change places, it may be the other one that fails; but one
of them fails as before, because what both leave is the same, and if it is not empty then
neither is what the first leaves.  So plain conditions may be tested in any order.

## Main definitions

* `PlainTest` — a question about the scene, or a test of the instances of an object.
* `Instruction.IsPlainCondition` — the conditions that come down to such tests.
* `passedAll?` — what conditions in a row pass on, if they all hold.

## Main statements

* `PlainTest.pass?_comm` — two tests in either order pass on the same.
* `Instruction.IsPlainCondition.exists_test` — what a plain condition comes down to.
* `passedAll?_perm`, `conditionsPass_of_answers` — in a row of conditions of which any two may
  change places, all may.
* `conditionsPass_perm` — plain conditions may be tested in any order.
-/

namespace SceneLogic

/-! ## Tests -/

/-- A question about the scene, or a test of each instance of an object. -/
inductive PlainTest where
  /-- Ask the scene. -/
  | asks (answer : Scene → Bool)
  /-- Keep the instances of an object that pass. -/
  | picks (object : String) (keeps : Store → Handle → Bool)

namespace PlainTest

/-- What is left of the list of an object when its instances are tested. -/
def left (object : String) (keeps : Store → Handle → Bool) (context : Context) : List Handle :=
  (context.picking.filled object context.scene.objects).filter (keeps context.scene.objects)

/-- Whether a test holds: the answer is yes, or an instance is left. -/
def holds (context : Context) : PlainTest → Bool
  | asks answer => answer context.scene
  | picks object keeps => !(left object keeps context).isEmpty

/-- What is picked after a test: of one list, the instances that are left. -/
def after (context : Context) : PlainTest → Context
  | asks _ => context
  | picks object keeps =>
    { context with picking := context.picking.insert object (left object keeps context) }

/-- What a test passes on, if it holds. -/
def pass? (test : PlainTest) (context : Context) : Option Context :=
  if test.holds context then some (test.after context) else none

theorem pass?_asks (answer : Scene → Bool) (context : Context) :
    (asks answer).pass? context = if answer context.scene then some context else none := rfl

theorem pass?_picks (object : String) (keeps : Store → Handle → Bool) (context : Context) :
    (picks object keeps).pass? context =
      if left object keeps context = [] then none
      else some { context with
        picking := context.picking.insert object (left object keeps context) } := by
  by_cases hleft : left object keeps context = [] <;> simp [pass?, holds, after, hleft]

/-- No test changes the scene. -/
theorem scene_of_pass? {test : PlainTest} {context next : Context}
    (hpass : test.pass? context = some next) : next.scene = context.scene := by
  obtain ⟨-, hnext⟩ := Option.ite_none_right_eq_some.1 hpass
  cases hnext
  cases test <;> rfl

/-- Asking the scene and testing instances do not meddle with each other. -/
theorem pass?_asks_bind (answer : Scene → Bool) (test : PlainTest) (context : Context) :
    ((asks answer).pass? context).bind test.pass? =
      (test.pass? context).bind (asks answer).pass? := by
  rw [pass?_asks]
  cases hpass : test.pass? context with
  | none => cases answer context.scene <;> simp [hpass]
  | some next =>
    rw [Option.bind_some, pass?_asks, scene_of_pass? hpass]
    cases answer context.scene <;> simp [hpass]

/-- Two tests of the instances of one object pass on what passes both. -/
theorem pass?_picks_bind_same (object : String) (first second : Store → Handle → Bool)
    (context : Context) :
    ((picks object first).pass? context).bind (picks object second).pass? =
      (picks object fun store handle => second store handle && first store handle).pass?
        context := by
  have hboth : (left object first context).filter (second context.scene.objects) =
      left object (fun store handle => second store handle && first store handle) context :=
    List.filter_filter
  have hsecond : left object second { context with
      picking := context.picking.insert object (left object first context) } =
        left object (fun store handle => second store handle && first store handle) context := by
    rw [← hboth, left, Picking.filled_insert, if_pos rfl]
  rw [pass?_picks, pass?_picks]
  by_cases hfirst : left object first context = []
  · rw [if_pos hfirst, if_pos (by rw [← hboth, hfirst]; rfl)]
    rfl
  · rw [if_neg hfirst, Option.bind_some, pass?_picks, hsecond, NameMap.insert_insert]

/-- Tests of the instances of different objects do not meddle with each other. -/
theorem pass?_picks_bind_of_ne {object other : String} (hne : object ≠ other)
    (first second : Store → Handle → Bool) (context : Context) :
    ((picks object first).pass? context).bind (picks other second).pass? =
      if left object first context = [] ∨ left other second context = [] then none
      else some { context with
        picking := (context.picking.insert object (left object first context)).insert other
          (left other second context) } := by
  rw [pass?_picks]
  by_cases hfirst : left object first context = []
  · simp [hfirst]
  · rw [if_neg hfirst, Option.bind_some, pass?_picks]
    have hleft : left other second { context with
        picking := context.picking.insert object (left object first context) } =
          left other second context := by
      simp [left, hne.symm]
    simp [hleft, hfirst]

/-- Two tests in either order pass on the same. -/
theorem pass?_comm (first second : PlainTest) (context : Context) :
    (first.pass? context).bind second.pass? = (second.pass? context).bind first.pass? := by
  cases first with
  | asks answer => exact pass?_asks_bind answer second context
  | picks object keeps =>
    cases second with
    | asks answer => exact (pass?_asks_bind answer _ context).symm
    | picks other keepsOther =>
      by_cases hother : object = other
      · subst hother
        simp only [pass?_picks_bind_same, Bool.and_comm]
      · rw [pass?_picks_bind_of_ne hother, pass?_picks_bind_of_ne (Ne.symm hother)]
        simp only [or_comm, NameMap.insert_comm _ hother]

end PlainTest

/-! ## Plain conditions -/

/-- The operations of plain conditions. -/
def plainOperations : List String :=
  ["common/IsTrue", "variables/Compare", "variables/Exists", "objects/VarEquals"]

/-- A condition that is not inverted, has the parameters that it must have and, where it
compares, an operator that exists. -/
structure Instruction.IsPlainCondition (condition : Instruction) : Prop where
  operation : condition.operation ∈ plainOperations
  upright : condition.inverted = false
  valid : (Registry.builtin.validate condition .condition).isOk = true
  operator : condition.operation = "variables/Compare" →
    ((condition.name? 1).bind Comparison.ofSign?).isSome = true

namespace Instruction.IsPlainCondition

instance (condition : Instruction) : Decidable condition.IsPlainCondition :=
  decidable_of_iff (condition.operation ∈ plainOperations ∧ condition.inverted = false ∧
      (Registry.builtin.validate condition .condition).isOk = true ∧
      (condition.operation = "variables/Compare" →
        ((condition.name? 1).bind Comparison.ofSign?).isSome = true))
    ⟨fun h => ⟨h.1, h.2.1, h.2.2.1, h.2.2.2⟩,
      fun h => ⟨h.operation, h.upright, h.valid, h.operator⟩⟩

variable {condition other : Instruction}

/-- What a plain condition comes down to. -/
theorem exists_test (h : condition.IsPlainCondition) : ∃ test : PlainTest, ∀ context,
    Registry.builtin.execute condition .condition context =
      (.ok (.truth (test.holds context)), test.after context) := by
  have hoperation := h.operation
  simp only [plainOperations, List.mem_cons, List.not_mem_nil, or_false] at hoperation
  rcases hoperation with hid | hid | hid | hid
  · have hoffers : Registry.builtin.Offers condition.operation .condition 0 Builtin.isTrue :=
      hid ▸ ⟨_, (Registry.get?_builtin _).trans rfl, rfl, rfl⟩
    refine ⟨.asks fun _ => true, fun context => ?_⟩
    rw [hoffers.execute (hoffers.validate_isOk_iff.1 h.valid)]
    rfl
  · have hoffers : Registry.builtin.Offers condition.operation .condition 3
        Builtin.compareVariable := hid ▸ ⟨_, (Registry.get?_builtin _).trans rfl, rfl, rfl⟩
    have hlength := hoffers.validate_isOk_iff.1 h.valid
    obtain ⟨name, hname⟩ := condition.exists_name? (by omega : 0 < condition.parameters.length)
    obtain ⟨comparison, hoperator⟩ := Option.isSome_iff_exists.1 (h.operator hid)
    obtain ⟨sign, hsign, hcomparison⟩ := Option.bind_eq_some_iff.1 hoperator
    let value := Builtin.valueAt condition 2
    refine ⟨.asks fun scene => (scene.valueOf? name).any (comparison.Holds · value),
      fun context => ?_⟩
    rw [hoffers.execute hlength]
    simp only [Builtin.compareVariable, Builtin.withName, hname, hsign, Builtin.comparison,
      compare?, hcomparison, Option.map_some, PlainTest.holds, PlainTest.after]
    cases context.scene.valueOf? name <;> rfl
  · have hoffers : Registry.builtin.Offers condition.operation .condition 1
        Builtin.variableExists := hid ▸ ⟨_, (Registry.get?_builtin _).trans rfl, rfl, rfl⟩
    have hlength := hoffers.validate_isOk_iff.1 h.valid
    obtain ⟨name, hname⟩ := condition.exists_name? (by omega : 0 < condition.parameters.length)
    refine ⟨.asks fun scene => (scene.valueOf? name).isSome, fun context => ?_⟩
    rw [hoffers.execute hlength]
    simp only [Builtin.variableExists, Builtin.withName, hname]
    rfl
  · have hoffers : Registry.builtin.Offers condition.operation .condition 3
        Builtin.pickByVariable := hid ▸ ⟨_, (Registry.get?_builtin _).trans rfl, rfl, rfl⟩
    have hlength := hoffers.validate_isOk_iff.1 h.valid
    obtain ⟨object, hobject⟩ := condition.exists_name? (by omega : 0 < condition.parameters.length)
    obtain ⟨key, hkey⟩ := condition.exists_name? (by omega : 1 < condition.parameters.length)
    let value := Builtin.valueAt condition 2
    refine ⟨.picks object fun store => Builtin.hasValue store key value, fun context => ?_⟩
    rw [hoffers.execute hlength]
    simp only [Builtin.pickByVariable, Builtin.withName, hobject, hkey, Picking.ensure_eq,
      NameMap.insert_insert]
    rfl

end Instruction.IsPlainCondition

/-! ## Conditions in any order -/

section AnyRegistry

variable (registry : Registry)

/-- What a condition passes on, if it holds. -/
def Instruction.passed? (condition : Instruction) (context : Context) : Option Context :=
  match registry.execute condition .condition context with
  | (.ok (.truth true), next) => some next
  | _ => none

/-- What conditions in a row pass on, if they all hold. -/
def passedAll? (conditions : List Instruction) (start : Option Context) : Option Context :=
  conditions.foldl (fun reached condition => reached.bind (condition.passed? registry)) start

theorem passedAll?_none (conditions : List Instruction) :
    passedAll? registry conditions none = none := by
  induction conditions with
  | nil => rfl
  | cons condition rest ih => exact ih

variable {registry}

/-- Conditions of which any two pass on the same in either order all pass on the same in any
order. -/
theorem passedAll?_perm {conditions others : List Instruction} (hperm : conditions.Perm others)
    (hcomm : ∀ first ∈ conditions, ∀ second ∈ conditions, ∀ context,
      (first.passed? registry context).bind (second.passed? registry) =
        (second.passed? registry context).bind (first.passed? registry))
    (start : Option Context) :
    passedAll? registry conditions start = passedAll? registry others start := by
  refine hperm.foldl_eq' (fun first hfirst second hsecond reached => ?_) start
  cases reached with
  | none => rfl
  | some context => exact hcomm first hfirst second hsecond context

/-- Conditions in a row that answer yes or no all hold if they pass something on, by induction
on the conditions. -/
theorem conditionsPass_of_answers {conditions : List Instruction}
    (hupright : ∀ condition ∈ conditions, condition.inverted = false)
    (hanswers : ∀ condition ∈ conditions, ∀ context, ∃ holds next,
      registry.execute condition .condition context = (.ok (.truth holds), next))
    (context : Context) :
    ∃ last, conditionsPass registry conditions context =
        (.ok (passedAll? registry conditions (some context)).isSome, last) ∧
      ∀ next ∈ passedAll? registry conditions (some context), last = next := by
  induction conditions generalizing context with
  | nil => exact ⟨context, rfl, by simp [passedAll?]⟩
  | cons condition rest ih =>
    obtain ⟨hinverted, huprightRest⟩ := List.forall_mem_cons.1 hupright
    obtain ⟨hanswer, hanswersRest⟩ := List.forall_mem_cons.1 hanswers
    obtain ⟨holds, next, hexecute⟩ := hanswer context
    have hreached : passedAll? registry (condition :: rest) (some context) =
        passedAll? registry rest (if holds then some next else none) := by
      simp only [passedAll?, List.foldl_cons, Option.bind_some, Instruction.passed?, hexecute]
      cases holds <;> rfl
    simp only [conditionsPass, hexecute, hinverted, hreached, Output.truth?]
    cases holds with
    | false => simp [passedAll?_none]
    | true => simpa using ih huprightRest hanswersRest next

end AnyRegistry

namespace Instruction.IsPlainCondition

variable {condition other : Instruction}

theorem exists_pass? (h : condition.IsPlainCondition) :
    ∃ test : PlainTest, condition.passed? .builtin = test.pass? := by
  obtain ⟨test, htest⟩ := h.exists_test
  refine ⟨test, funext fun context => ?_⟩
  simp only [passed?, htest, PlainTest.pass?]
  cases test.holds context <;> rfl

/-- Two plain conditions in either order pass on the same. -/
theorem passed?_comm (h : condition.IsPlainCondition) (hother : other.IsPlainCondition)
    (context : Context) :
    (condition.passed? .builtin context).bind (other.passed? .builtin) =
      (other.passed? .builtin context).bind (condition.passed? .builtin) := by
  obtain ⟨first, hfirst⟩ := h.exists_pass?
  obtain ⟨second, hsecond⟩ := hother.exists_pass?
  rw [hfirst, hsecond, PlainTest.pass?_comm]

end Instruction.IsPlainCondition

/-- **Plain conditions may be tested in any order.**  Take any conditions that are not inverted,
have the parameters that they must have and an operator that exists, and only ask whether a
variable of the scene is set or how it compares, or pick the instances with a variable of a
value.  They never end with an error.  If they change places, then all of them hold or not as
before, in every scene and whatever is picked; and if they hold, the scene and what is picked
afterwards are the same. -/
theorem conditionsPass_perm {conditions others : List Instruction}
    (hperm : conditions.Perm others)
    (hplain : ∀ condition ∈ conditions, condition.IsPlainCondition) (context : Context) :
    ∃ holds last final, conditionsPass .builtin conditions context = (.ok holds, last) ∧
      conditionsPass .builtin others context = (.ok holds, final) ∧
      (holds = true → last = final) := by
  have hanswers : ∀ condition ∈ conditions, ∀ context, ∃ holds next,
      Registry.builtin.execute condition .condition context = (.ok (.truth holds), next) := by
    intro condition hmem context
    obtain ⟨test, htest⟩ := (hplain condition hmem).exists_test
    exact ⟨_, _, htest context⟩
  have hperm_mem : ∀ condition ∈ others, condition ∈ conditions :=
    fun condition hmem => hperm.mem_iff.2 hmem
  obtain ⟨last, heq, hlast⟩ := conditionsPass_of_answers
    (fun condition hmem => (hplain condition hmem).upright) hanswers context
  obtain ⟨final, hfinal, hsame⟩ := conditionsPass_of_answers
    (fun condition hmem => (hplain condition (hperm_mem condition hmem)).upright)
    (fun condition hmem => hanswers condition (hperm_mem condition hmem)) context
  rw [← passedAll?_perm hperm fun first hfirst second hsecond =>
    (hplain first hfirst).passed?_comm (hplain second hsecond)] at hfinal hsame
  refine ⟨_, last, final, heq, hfinal, fun hholds => ?_⟩
  obtain ⟨next, hnext⟩ := Option.isSome_iff_exists.1 hholds
  exact (hlast next hnext).trans (hsame next hnext).symm

/-- Three coins, of which one is worth five and round and the others either, and a fourth that
ended. -/
def coinTray : Scene :=
  { Scene.named "scene" with
    bindings := NameMap.empty.insert "gold" (.ofNat 7)
    objects := Store.after
      [.create "Coin", .create "Coin", .create "Coin", .create "Coin", .destroy ⟨3, 0⟩,
        .modify ⟨0, 0⟩ (·.setVariable "worth" (.ofNat 5)),
        .modify ⟨1, 0⟩ (·.setVariable "worth" (.ofNat 5)),
        .modify ⟨1, 0⟩ (·.setVariable "shape" (.string "round")),
        .modify ⟨2, 0⟩ (·.setVariable "shape" (.string "round"))] }

/-- All coins are picked from the last to the first, with the one that ended. -/
def trayPicker : Context :=
  ⟨coinTray, (∅ : Picking).insert "Coin" [⟨3, 0⟩, ⟨2, 0⟩, ⟨1, 0⟩, ⟨0, 0⟩]⟩

/-- There is enough gold, and some round coins are worth five. -/
def roundConditions : List Instruction :=
  [⟨"objects/VarEquals", ["Coin", "worth", "5"], false⟩,
    ⟨"variables/Compare", ["gold", ">=", "5"], false⟩,
    ⟨"objects/VarEquals", ["Coin", "shape", "\"round\""], false⟩,
    ⟨"variables/Exists", ["gold"], false⟩, ⟨"common/IsTrue", [], false⟩]

/-- From the last to the first the conditions hold as well, and the same coin is left. -/
theorem conditionsPass_perm_of_roundConditions :
    ∃ final, conditionsPass .builtin roundConditions.reverse trayPicker = (.ok true, final) ∧
      final.picking.get? "Coin" = some [⟨1, 0⟩] := by
  have hplain : ∀ condition ∈ roundConditions, condition.IsPlainCondition := by decide +kernel
  have hforward : (conditionsPass .builtin roundConditions trayPicker).map id
      (·.picking.get? "Coin") = (.ok true, some [⟨1, 0⟩]) := by decide +kernel
  obtain ⟨holds, last, final, hlast, hfinal, hsame⟩ := conditionsPass_perm
    (List.reverse_perm roundConditions).symm hplain trayPicker
  rw [hlast, Prod.map_apply, Prod.mk.injEq] at hforward
  obtain ⟨hholds, hleft⟩ := hforward
  obtain rfl : holds = true := Except.ok.inj hholds
  exact ⟨final, hfinal, hsame rfl ▸ hleft⟩

end SceneLogic

import SceneLogic.Execution.Run
import SceneLogic.Proofs.Execution.Builtin
import SceneLogic.Proofs.Execution.Equations
import SceneLogic.Proofs.Objects.Picking
import SceneLogic.Proofs.Objects.StoreHistory

/-!
# Conditions only narrow

Testing a condition may fill lists, drop dead handles from them and keep only the instances
for which it holds.  It does nothing else: the scene stays as it is, no list is gone, and each
list, once it is filled, is part of what it was.  This holds of each built-in condition and so
of all of them in a row, whether they pass, fail or end with an error.

## Main definitions

* `Context.Narrows` — the same scene, with each list part of what it was.

## Main statements

* `Builtin.narrows` — every built-in condition only narrows.
* `Registry.execute_builtin_narrows` — so does whatever is tested as a condition.
* `conditionsPass_narrows` — so do conditions in a row, and an event whose conditions do not
  all pass does nothing to the scene.
-/

namespace SceneLogic

namespace Context

/-- The scene is the same, and no list holds what it did not hold once it was filled. -/
structure Narrows (before after : Context) : Prop where
  scene : after.scene = before.scene
  picking : Picking.Narrows before.scene.objects before.picking after.picking

namespace Narrows

@[refl] theorem refl (context : Context) : context.Narrows context := ⟨rfl, .refl _⟩

theorem trans {first second third : Context} (h : first.Narrows second)
    (hnext : second.Narrows third) : first.Narrows third where
  scene := hnext.scene.trans h.scene
  picking := h.picking.trans (h.scene ▸ hnext.picking)

/-- The live handles of a list are part of it. -/
theorem picked (context : Context) (object : String) :
    context.Narrows (context.picked object).2 where
  scene := rfl
  picking := .picked context.picking object context.scene.objects

theorem firstPicked? (context : Context) (object : String) :
    context.Narrows (context.firstPicked? object).2 where
  scene := rfl
  picking := .picked context.picking object context.scene.objects

end Narrows

end Context

/-! ## Instructions -/

/-- Carrying out the operation only narrows what is picked, whatever the instruction. -/
def Operation.Narrows (operation : Operation) : Prop :=
  ∀ (instruction : Instruction) (context : Context),
    context.Narrows (operation.execute instruction context).2

namespace Builtin

/-- An instruction that lacks a name has no effect. -/
theorem narrows_withName {instruction : Instruction} {index : Nat} {what : String}
    {context : Context} {next : String → Output × Context}
    (hnext : ∀ name, context.Narrows (next name).2) :
    context.Narrows (withName instruction index what context next).2 :=
  withName_cases (motive := context.Narrows) (.refl context) hnext

/-- The instances that are linked with a live handle are kept in the list of their object. -/
theorem narrows_rejoin_pickLinked (context : Context) (object : String) (target : Option Handle)
    (hlist : (context.picking.get? object).isSome = true) :
    let parts := context.picking.splitOff [object]
    context.Narrows
      { context with
        picking := parts.2.merge (context.scene.pickLinked parts.1 target).2 } := by
  intro parts
  obtain ⟨handles, hhandles⟩ := Option.isSome_iff_exists.1 hlist
  have hrejoin : ∀ test, Picking.Narrows context.scene.objects context.picking
      (parts.2.merge (parts.1.keepIf test)) := by
    intro test
    have hsublist : (handles.filter test).Sublist
        (context.picking.filled object context.scene.objects) := by
      rw [Picking.filled_of_get? hhandles]
      exact List.filter_sublist
    rw [Picking.rejoin_eq context.picking object hhandles test]
    exact .insert hsublist
  refine ⟨rfl, ?_⟩
  unfold Scene.pickLinked
  split
  next =>
    rw [Picking.rejoin_self context.picking object hhandles]
  next handle _ => exact hrejoin (context.scene.linkedWith handle).contains

/-- Every built-in condition only narrows. -/
theorem narrows : ∀ entry ∈ operations, entry.definition.kind = .condition → entry.Narrows := by
  have action {narrows : Prop} (h : InstructionKind.action = .condition) : narrows :=
    absurd h (by decide)
  simp only [operations, List.forall_mem_cons]
  refine ⟨?isTrue, ?compareVariable, ?variableExists, action, ?pickByVariable, ?countObjects,
    action, action, action, ?pickLinked, action, action, action, action, List.forall_mem_nil _⟩
  all_goals intro _ instruction context
  case isTrue => exact .refl context
  -- All others read a name first.
  all_goals refine narrows_withName fun object => ?_
  case variableExists => exact .refl context
  -- And all but that one a second.
  all_goals refine narrows_withName fun second => ?_
  case compareVariable => split <;> exact .refl context
  case countObjects => exact .picked context object
  case pickByVariable =>
    refine ⟨rfl, ?_⟩
    simp only [Picking.ensure_eq, NameMap.insert_insert]
    exact .insert List.filter_sublist
  case pickLinked =>
    let target := context.firstPicked? second
    have hpicked : target.2.Narrows (target.2.picked object).2 := .picked target.2 object
    have hlist : (((target.2.picked object).2).picking.get? object).isSome = true := by
      simp [Context.picked, Picking.picked_eq]
    exact ((Context.Narrows.firstPicked? context second).trans hpicked).trans
      (narrows_rejoin_pickLinked (target.2.picked object).2 object target.1 hlist)

end Builtin

/-- Whatever is tested as a condition only narrows; an action is refused. -/
theorem Registry.execute_builtin_narrows (condition : Instruction) (context : Context) :
    context.Narrows (builtin.execute condition .condition context).2 := by
  rcases execute_builtin_snd condition .condition context with heq | ⟨operation, hmem, hkind, heq⟩
  · rw [heq]
  · rw [heq]
    exact Builtin.narrows operation hmem hkind condition context

/-! ## Conditions in a row -/

/-- One condition after another only narrows, by induction on the conditions. -/
theorem narrows_conditionsPass (conditions : List Instruction) (context : Context) :
    context.Narrows (conditionsPass .builtin conditions context).2 := by
  induction conditions generalizing context with
  | nil => exact .refl context
  | cons condition rest ih =>
    have hstep := Registry.execute_builtin_narrows condition context
    simp only [conditionsPass]
    split
    next error middle heq => rwa [heq] at hstep
    next output middle heq =>
      rw [heq] at hstep
      split
      next => exact hstep
      next holds _ =>
        split
        next => exact hstep
        next => exact hstep.trans (ih middle)

/-- A body whose conditions do not all pass does what they do. -/
theorem runBody_of_not_pass (registry : Registry) (call : Call) {body : Body} {context : Context}
    (h : (conditionsPass registry body.conditions context).1 ≠ .ok true) :
    runBody registry call body context = conditionsPass registry body.conditions context := by
  unfold runBody
  split
  next final heq =>
    rw [heq] at h
    exact absurd rfl h
  next result final _ heq => rw [heq]

/-- A function whose conditions do not all pass leaves the scene as it was. -/
theorem Function.runFrom_of_not_pass (call : Call) {function : Function} {context : Context}
    (h : (conditionsPass .builtin function.body.conditions context).1 ≠ .ok true) :
    (function.runFrom .builtin call context).2 = context.scene := by
  have hscene := (narrows_conditionsPass function.body.conditions context).scene
  rw [Function.runFrom, runBody_of_not_pass .builtin call h]
  split
  next heq => rwa [heq] at hscene
  next heq => rwa [heq] at hscene
  next heq => exact absurd (by rw [heq]) h

/-- So does an event, which may be disabled. -/
theorem Event.runFrom_of_not_pass (call : Call) (flags : Flags) {body : Body}
    (events : List Event) {picking : Picking} {scene : Scene}
    (h : (conditionsPass .builtin body.conditions ⟨scene, picking⟩).1 ≠ .ok true) :
    (Event.runFrom .builtin call (.branch flags (.standard body) events) picking scene).2 =
      scene := by
  obtain ⟨disabled, folded⟩ := flags
  cases disabled with
  | true => simp [Event.runFrom]
  | false =>
    let function : Function := ⟨⟨false, folded⟩, ⟨"", ""⟩, body, events⟩
    rw [Event.runFrom_standard .builtin call folded function]
    exact Function.runFrom_of_not_pass call h

/-! ## Nothing but the lists -/

/-- **Conditions only narrow.**  Testing conditions in a row, whether they all pass, one does
not, or one ends with an error, leaves the scene as it was.  Each list that was there is still
there and has only handles that it had, in their order; a list that is new has only instances
of its object, in the order of their slots.  So an event whose conditions do not all pass does
nothing to the scene, and neither does a function. -/
theorem conditionsPass_narrows (conditions : List Instruction) (context : Context) :
    let outcome := conditionsPass .builtin conditions context
    let store := context.scene.objects
    outcome.2.scene = context.scene ∧
    (∀ name handles, context.picking.get? name = some handles →
      ∃ left, outcome.2.picking.get? name = some left ∧ left.Sublist handles) ∧
    (∀ name left, context.picking.get? name = none → outcome.2.picking.get? name = some left →
      left.Sublist (store.instancesOf name)) ∧
    (store.slots.length ≤ UInt32.size → ∀ name,
      ((store.instancesOf name).map (·.slot)).Pairwise (· < ·) ∧
        ∀ handle, handle ∈ store.instancesOf name ↔
          ∃ item, store.get? handle = some item ∧ item.object = name) ∧
    ∀ (call : Call) (flags : Flags) (signature : Signature) (actions : List Instruction)
        (events : List Event), outcome.1 ≠ .ok true →
      (Event.runFrom .builtin call (.branch flags (.standard ⟨conditions, actions⟩) events)
          context.picking context.scene).2 = context.scene ∧
        (Function.runFrom .builtin call ⟨flags, signature, ⟨conditions, actions⟩, events⟩
          context).2 = context.scene := by
  intro outcome store
  have hnarrows := narrows_conditionsPass conditions context
  refine ⟨hnarrows.scene, ?_, ?_, ?_, ?_⟩
  · exact fun name handles => hnarrows.picking.get?_of_some
  · exact fun name left hnone => hnarrows.picking.sublist_of_none hnone
  · intro hlength name
    exact ⟨Store.pairwise_instancesOf hlength name, fun _ => Store.mem_instancesOf_iff hlength⟩
  · intro call flags signature actions events hpass
    exact ⟨Event.runFrom_of_not_pass call flags events hpass,
      Function.runFrom_of_not_pass call hpass⟩

/-- A coin worth five and one of no worth, left of three, and a purse. -/
def coinsAndPurse : Scene :=
  { Scene.named "scene" with
    objects := Store.after
      [.create "Coin", .create "Coin", .create "Purse", .create "Coin",
        .modify ⟨3, 0⟩ fun coin => coin.setVariable "worth" (.ofNat 5), .destroy ⟨0, 0⟩] }

/-- All but one of the coins are picked, a lost one among them. -/
def coinPicker : Context :=
  ⟨coinsAndPurse, (∅ : Picking).insert "Coin" [⟨0, 0⟩, ⟨3, 0⟩, ⟨1, 0⟩]⟩

/-- There are coins, some are worth five, and these are linked with the purse. -/
def purseConditions : List Instruction :=
  [⟨"objects/Count", ["Coin", "==", "0"], true⟩,
    ⟨"objects/VarEquals", ["Coin", "worth", "5"], false⟩,
    ⟨"linked/PickObjectsLinkedTo", ["Coin", "Purse"], false⟩]

/-- No coin is linked with the purse, so the last of the conditions does not pass.  By then
the lists of both objects are changed, but nothing is deleted. -/
theorem conditionsPass_narrows_of_purseConditions :
    let outcome := conditionsPass .builtin purseConditions coinPicker
    outcome.1 = .ok false ∧ outcome.2.scene = coinsAndPurse ∧
      (∃ left, outcome.2.picking.get? "Coin" = some left ∧
        left.Sublist [⟨0, 0⟩, ⟨3, 0⟩, ⟨1, 0⟩]) ∧
      (∃ left, outcome.2.picking.get? "Purse" = some left ∧ left.Sublist [⟨2, 0⟩]) ∧
      ((coinsAndPurse.objects.instancesOf "Coin").map (·.slot)).Pairwise (· < ·) ∧
      ∀ call, (Event.runFrom .builtin call
        (.branch ⟨false, false⟩
          (.standard ⟨purseConditions, [⟨"objects/Delete", ["Coin"], false⟩]⟩) [])
        coinPicker.picking coinsAndPurse).2 = coinsAndPurse := by
  intro outcome
  obtain ⟨hscene, hkept, hnew, hlive, hidle⟩ := conditionsPass_narrows purseConditions coinPicker
  have hpurse : outcome.2.picking.get? "Purse" = some [⟨2, 0⟩] := by decide +kernel
  have hresult : outcome.1 = .ok false := by decide +kernel
  have hordered := (hlive (by decide) "Coin").1
  refine ⟨hresult, hscene, hkept "Coin" _ rfl, ⟨_, hpurse, hnew "Purse" _ rfl hpurse⟩,
    hordered, fun call => ?_⟩
  exact (hidle call ⟨false, false⟩ ⟨"", ""⟩ _ [] (by rw [hresult]; nofun)).1

end SceneLogic

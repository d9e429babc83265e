import SceneLogic.Execution.Run
import SceneLogic.Proofs.Event.Alike

/-!
# Runs that follow each other

Two runs start in scenes that are alike, from the same picking, in trees that run alike.
If every single instruction that the first run carries out is followed by the second, with
the same answer and picking and in scenes that are alike again, then so are the runs as a
whole, however their events nest and their functions call each other.  Some errors may cut
the first run short, for instance because its calls nest too deep; whatever the second does
then is no matter.

The two runs may use different registries, trees and limits of calls.  As for contracts,
the induction over events and the one over the depth of calls are done here once.

## Main definitions

* `Simulation` — which scenes are alike and which errors cut the first run short.
* `Follows` — an outcome that follows another; `Simulation.FollowsCalls` — so do calls.
* `Simulation.Respected` — the single instructions follow each other.

## Main statements

* `Simulation.Respected.events` — events follow each other if the calls they make do.
* `Simulation.Respected.callFrom` — calls do, if the first do not nest deeper.
* `Simulation.Respected.run` — so do runs of trees that run alike.
* `run_congr` — trees that run alike have the same runs.
-/

namespace SceneLogic

/-- The scenes of two runs that are alike, and the errors that cut the first run short. -/
structure Simulation where
  alike : Scene → Scene → Prop
  cut : ExecutionError → Prop

/-- An outcome that follows another one: the first was cut short, or both give the same
result and leave states that are related. -/
inductive Follows {α σ : Type} (cut : ExecutionError → Prop) (related : σ → σ → Prop) :
    Except ExecutionError α × σ → Except ExecutionError α × σ → Prop where
  | cut {error : ExecutionError} {first : σ} {second : Except ExecutionError α × σ}
    (hcut : cut error) : Follows cut related (.error error, first) second
  | same {result : Except ExecutionError α} {first second : σ} (hrelated : related first second) :
    Follows cut related (result, first) (result, second)

/-- What an outcome that was not cut short has in common with the one that follows it. -/
theorem Follows.of_not_cut {α σ : Type} {cut : ExecutionError → Prop} {related : σ → σ → Prop}
    {first second : Except ExecutionError α × σ} (h : Follows cut related first second)
    (huncut : ∀ error, first.1 = .error error → ¬ cut error) :
    first.1 = second.1 ∧ related first.2 second.2 := by
  cases h with
  | cut hcut => exact absurd hcut (huncut _ rfl)
  | same hrelated => exact ⟨rfl, hrelated⟩

/-- An outcome that was not cut short is the one that follows it exactly. -/
theorem Follows.eq_of_not_cut {α σ : Type} {cut : ExecutionError → Prop}
    {first second : Except ExecutionError α × σ} (h : Follows cut Eq first second)
    (huncut : ∀ error, first.1 = .error error → ¬ cut error) : first = second := by
  have hsame := h.of_not_cut huncut
  exact Prod.ext hsame.1 hsame.2

namespace Simulation

variable {simulation : Simulation} {registry registry' : Registry} {call call' : Call}

/-- Contexts with the same picking in scenes that are alike. -/
structure AlikeContexts (simulation : Simulation) (first second : Context) : Prop where
  picking : first.picking = second.picking
  scene : simulation.alike first.scene second.scene

/-- The second way of calling follows the first. -/
def FollowsCalls (simulation : Simulation) (call call' : Call) : Prop :=
  ∀ name objects {first second : Context}, simulation.AlikeContexts first second →
    Follows simulation.cut simulation.AlikeContexts (call name objects first)
      (call' name objects second)

/-- Each instruction is followed in scenes that are alike, which have the same instances. -/
structure Respected (simulation : Simulation) (registry registry' : Registry) : Prop where
  objects : ∀ {first second : Scene}, simulation.alike first second →
    first.objects = second.objects
  execute : ∀ instruction kind {first second : Context}, simulation.AlikeContexts first second →
    Follows simulation.cut simulation.AlikeContexts (registry.execute instruction kind first)
      (registry'.execute instruction kind second)

namespace Respected

/-! ## Bodies -/

theorem conditionsPass (respected : simulation.Respected registry registry')
    (conditions : List Instruction) {first second : Context}
    (h : simulation.AlikeContexts first second) :
    Follows simulation.cut simulation.AlikeContexts
      (conditionsPass registry conditions first) (conditionsPass registry' conditions second) := by
  induction conditions generalizing first second with
  | nil => exact .same h
  | cons condition rest ih =>
    have hstep := respected.execute condition .condition h
    simp only [SceneLogic.conditionsPass]
    generalize registry.execute condition .condition first = outcome at hstep ⊢
    generalize registry'.execute condition .condition second = outcome' at hstep ⊢
    cases hstep with
    | cut hcut => exact .cut hcut
    | @same result first second hnext =>
      rcases result with error | output
      · exact .same hnext
      · dsimp only
        split
        · exact .same hnext
        · split
          · exact .same hnext
          · exact ih hnext

theorem runAction (respected : simulation.Respected registry registry')
    (calls : simulation.FollowsCalls call call') (action : Instruction) {first second : Context}
    (h : simulation.AlikeContexts first second) :
    Follows simulation.cut simulation.AlikeContexts
      (runAction registry call action first) (runAction registry' call' action second) := by
  have hstep := respected.execute action .action h
  simp only [SceneLogic.runAction]
  generalize registry.execute action .action first = outcome at hstep ⊢
  generalize registry'.execute action .action second = outcome' at hstep ⊢
  cases hstep with
  | cut hcut => exact .cut hcut
  | @same result first second hnext =>
    rcases result with error | output
    · exact .same hnext
    · cases output with
      | call function objects => exact calls function objects hnext
      | done | truth holds | failure message => exact .same hnext

theorem runActions (respected : simulation.Respected registry registry')
    (calls : simulation.FollowsCalls call call') (actions : List Instruction)
    {first second : Context} (h : simulation.AlikeContexts first second) :
    Follows simulation.cut simulation.AlikeContexts
      (runActions registry call actions first) (runActions registry' call' actions second) := by
  induction actions generalizing first second with
  | nil => exact .same h
  | cons action rest ih =>
    have hstep := respected.runAction calls action h
    simp only [SceneLogic.runActions]
    generalize SceneLogic.runAction registry call action first = outcome at hstep ⊢
    generalize SceneLogic.runAction registry' call' action second = outcome' at hstep ⊢
    cases hstep with
    | cut hcut => exact .cut hcut
    | @same result first second hnext =>
      rcases result with error | _
      · exact .same hnext
      · exact ih hnext

theorem runBody (respected : simulation.Respected registry registry')
    (calls : simulation.FollowsCalls call call') (body : Body) {first second : Context}
    (h : simulation.AlikeContexts first second) :
    Follows simulation.cut simulation.AlikeContexts
      (runBody registry call body first) (runBody registry' call' body second) := by
  have hpass := respected.conditionsPass body.conditions h
  simp only [SceneLogic.runBody]
  generalize SceneLogic.conditionsPass registry body.conditions first = outcome at hpass ⊢
  generalize SceneLogic.conditionsPass registry' body.conditions second = outcome' at hpass ⊢
  cases hpass with
  | cut hcut => exact .cut hcut
  | @same result first second hpassed =>
    rcases result with error | _ | _
    · exact .same hpassed
    · exact .same hpassed
    · have hrun := respected.runActions calls body.actions hpassed
      dsimp only
      generalize SceneLogic.runActions registry call body.actions first = outcome at hrun ⊢
      generalize SceneLogic.runActions registry' call' body.actions second = outcome' at hrun ⊢
      cases hrun with
      | cut hcut => exact .cut hcut
      | @same result first second hran =>
        rcases result with error | _
        · exact .same hran
        · exact .same hran

/-! ## Events -/

/-- An event that is idle leaves the scene as it is. -/
theorem runFrom_of_isIdle {event : Event} (hidle : event.IsIdle) (picking : Picking)
    (scene : Scene) : event.runFrom registry call picking scene = (.ok (), scene) := by
  cases event with
  | comment flags note => rfl
  | branch flags header events =>
    by_cases hdisabled : flags.disabled = true
    · simp [Event.runFrom, hdisabled]
    · cases header with
      | function signature body => simp [Event.runFrom, hdisabled]
      | standard body | group info => simp [Event.IsIdle, Event.flags, Event.kind, Header.kind,
          hdisabled] at hidle

mutual

/-- Events that run alike follow each other if the calls they make do. -/
theorem event (respected : simulation.Respected registry registry')
    (calls : simulation.FollowsCalls call call') {other : Event} :
    ∀ {event : Event}, event.RunsLike other → ∀ (picking : Picking) {first second : Scene},
      simulation.alike first second →
        Follows simulation.cut simulation.alike (event.runFrom registry call picking first)
          (other.runFrom registry' call' picking second)
  | event, .idle hevent hother, picking, first, second, h => by
    rw [runFrom_of_isIdle hevent, runFrom_of_isIdle hother]
    exact .same h
  | .branch flags _ events, .group hdisabled info otherInfo below, picking, first, second, h => by
    simp only [Event.runFrom, ← hdisabled]
    split
    · exact .same h
    · exact Respected.events respected calls below picking h
  | .branch flags _ events, .standard hdisabled body below, picking, first, second, h => by
    simp only [Event.runFrom, ← hdisabled]
    split
    · exact .same h
    · have hcontexts : simulation.AlikeContexts ⟨first, picking⟩ ⟨second, picking⟩ := ⟨rfl, h⟩
      have hbody := respected.runBody calls body hcontexts
      generalize SceneLogic.runBody registry call body ⟨first, picking⟩ = outcome at hbody ⊢
      generalize SceneLogic.runBody registry' call' body ⟨second, picking⟩ = outcome' at hbody ⊢
      cases hbody with
      | cut hcut => exact .cut hcut
      | @same result first second hran =>
        rcases result with error | _ | _
        · exact .same hran.scene
        · exact .same hran.scene
        · dsimp only
          rw [← hran.picking]
          exact Respected.events respected calls below first.picking hran.scene

/-- Lists of events that run alike follow each other if the calls they make do. -/
theorem events (respected : simulation.Respected registry registry')
    (calls : simulation.FollowsCalls call call') {others : List Event} :
    ∀ {events : List Event}, EventTree.RunsLike events others →
      ∀ (picking : Picking) {first second : Scene}, simulation.alike first second →
        Follows simulation.cut simulation.alike
          (EventTree.runFrom registry call events picking first)
          (EventTree.runFrom registry' call' others picking second)
  | [], .nil, picking, first, second, h => .same h
  | head :: rest, .cons hhead hrest, picking, first, second, h => by
    have hstep := event respected calls hhead picking h
    simp only [EventTree.runFrom]
    generalize head.runFrom registry call picking first = outcome at hstep ⊢
    generalize Event.runFrom registry' call' _ picking second = outcome' at hstep ⊢
    cases hstep with
    | cut hcut => exact .cut hcut
    | @same result first second hran =>
      rcases result with error | _
      · exact .same hran
      · exact Respected.events respected calls hrest picking hran

end

/-! ## Calls -/

theorem function (respected : simulation.Respected registry registry')
    (calls : simulation.FollowsCalls call call') {function other : Function}
    (hbody : function.body = other.body)
    (hevents : EventTree.RunsLike function.events other.events) {first second : Context}
    (h : simulation.AlikeContexts first second) :
    Follows simulation.cut simulation.alike (function.runFrom registry call first)
      (other.runFrom registry' call' second) := by
  have hran := respected.runBody calls function.body h
  simp only [Function.runFrom, ← hbody]
  generalize SceneLogic.runBody registry call function.body first = outcome at hran ⊢
  generalize SceneLogic.runBody registry' call' function.body second = outcome' at hran ⊢
  cases hran with
  | cut hcut => exact .cut hcut
  | @same result first second hnext =>
    rcases result with error | _ | _
    · exact .same hnext.scene
    · exact .same hnext.scene
    · dsimp only
      rw [← hnext.picking]
      exact respected.events calls hevents first.picking hnext.scene

/-- The same handles are passed in contexts that are alike. -/
theorem bindArgument_eq (respected : simulation.Respected registry registry')
    {function other : Function} (hargument : function.signature.argument = other.signature.argument)
    (objects : Option String) {first second : Context}
    (h : simulation.AlikeContexts first second) :
    bindArgument function objects first = bindArgument other objects second := by
  simp only [bindArgument, hargument, h.picking, respected.objects h.scene]

/-- Calls follow calls in a tree that runs alike, if those of the first run may not nest
deeper.  Where they may nest less deep, the limit has to be an error that cuts it short.
The induction is on how deep the first calls may nest. -/
theorem callFrom (respected : simulation.Respected registry registry') {tree other : EventTree}
    (halike : EventTree.Alike tree other) {limit limit' depth depth' : Nat}
    (hdepth : depth ≤ depth')
    (hlimit : simulation.cut (.callDepthExceeded limit) ∨ limit = limit' ∧ depth = depth') :
    simulation.FollowsCalls (callFrom registry tree limit depth)
      (callFrom registry' other limit' depth') := by
  induction depth generalizing depth' with
  | zero =>
    intro name objects first second h
    rcases hlimit with hcut | ⟨rfl, rfl⟩
    · exact .cut hcut
    · exact .same h
  | succ depth ih =>
    obtain ⟨depth', rfl⟩ : ∃ inner, depth' = inner + 1 := ⟨depth' - 1, by omega⟩
    have hcalls := ih (Nat.le_of_succ_le_succ hdepth)
      (hlimit.imp_right fun ⟨hsame, heq⟩ => ⟨hsame, Nat.succ.inj heq⟩)
    intro name objects first second h
    have hfunctions := halike.functions name
    simp only [SceneLogic.callFrom]
    generalize EventTree.findFunction? name tree = found at hfunctions ⊢
    generalize EventTree.findFunction? name other = found' at hfunctions ⊢
    cases hfunctions with
    | none => exact .same h
    | @some function function' hlike =>
      dsimp only
      rw [← hlike.disabled]
      split
      · exact .same h
      · next henabled =>
        rw [Bool.not_eq_true] at henabled
        have hbound := respected.bindArgument_eq (hlike.argument henabled) objects h
        have hcontexts : simulation.AlikeContexts
            ⟨first.scene, (bindArgument function objects first).1⟩
            ⟨second.scene, (bindArgument function' objects second).1⟩ :=
          ⟨congrArg Prod.fst hbound, h.scene⟩
        have hran := respected.function hcalls (hlike.body henabled) (hlike.events henabled)
          hcontexts
        rw [← hbound] at hran ⊢
        generalize function.runFrom registry _ _ = outcome at hran ⊢
        generalize function'.runFrom registry' _ _ = outcome' at hran ⊢
        cases hran with
        | cut hcut => exact .cut hcut
        | same hnext => exact .same ⟨rfl, hnext⟩

/-- Runs follow each other if they start in scenes that are alike, in trees that run
alike. -/
theorem run (respected : simulation.Respected registry registry') {tree other : EventTree}
    (halike : EventTree.Alike tree other) {limit limit' : Nat} (hlimit : limit ≤ limit')
    (hcut : simulation.cut (.callDepthExceeded limit) ∨ limit = limit') {first second : Scene}
    (h : simulation.alike first second) :
    Follows simulation.cut simulation.alike (EventTree.run registry limit tree first)
      (EventTree.run registry' limit' other second) := by
  have hcalls := respected.callFrom halike hlimit (hcut.imp_right fun heq => ⟨heq, heq⟩)
  exact respected.events hcalls halike.events ∅ h

theorem callFunction (respected : simulation.Respected registry registry')
    {tree other : EventTree} (halike : EventTree.Alike tree other) {limit limit' : Nat}
    (hlimit : limit ≤ limit')
    (hcut : simulation.cut (.callDepthExceeded limit) ∨ limit = limit') (name : String)
    {first second : Scene} (h : simulation.alike first second) :
    Follows simulation.cut simulation.alike
      (EventTree.callFunction registry limit tree name first)
      (EventTree.callFunction registry' limit' other name second) := by
  have hcontexts : simulation.AlikeContexts ⟨first, ∅⟩ ⟨second, ∅⟩ := ⟨rfl, h⟩
  have hcall := respected.callFrom halike hlimit (hcut.imp_right fun heq => ⟨heq, heq⟩) name none
    hcontexts
  simp only [EventTree.callFunction]
  generalize SceneLogic.callFrom registry tree limit limit name none ⟨first, ∅⟩ = outcome at hcall ⊢
  generalize SceneLogic.callFrom registry' other limit' limit' name none ⟨second, ∅⟩ = outcome'
    at hcall ⊢
  cases hcall with
  | cut hcut => exact .cut hcut
  | same hnext => exact .same hnext.scene

end Respected

/-! ## Runs that are the same -/

/-- The second run does exactly what the first does, until that is cut short. -/
def exactly (cut : ExecutionError → Prop) : Simulation where
  alike := Eq
  cut := cut

theorem AlikeContexts.eq {cut : ExecutionError → Prop} {first second : Context}
    (h : (exactly cut).AlikeContexts first second) : first = second := by
  obtain ⟨scene, picking⟩ := first
  obtain ⟨scene', picking'⟩ := second
  obtain ⟨rfl, rfl⟩ : picking = picking' ∧ scene = scene' := ⟨h.picking, h.scene⟩
  rfl

theorem respected_exactly (cut : ExecutionError → Prop) (registry : Registry) :
    (exactly cut).Respected registry registry where
  objects h := congrArg Scene.objects h
  execute instruction kind first second h := by
    obtain rfl := h.eq
    exact .same ⟨rfl, rfl⟩

end Simulation

/-- Trees that run alike have the same runs and the same calls from outside. -/
theorem run_congr (registry : Registry) {tree other : EventTree}
    (halike : EventTree.Alike tree other) (limit : Nat) (scene : Scene) :
    EventTree.run registry limit tree scene = EventTree.run registry limit other scene ∧
      ∀ name, EventTree.callFunction registry limit tree name scene =
        EventTree.callFunction registry limit other name scene := by
  have respected := Simulation.respected_exactly (fun _ => False) registry
  constructor
  · have hrun := respected.run halike (Nat.le_refl limit) (.inr rfl) (Eq.refl scene)
    exact hrun.eq_of_not_cut fun _ _ => id
  · intro name
    have hcall := respected.callFunction halike (Nat.le_refl limit) (.inr rfl) name
      (Eq.refl scene)
    exact hcall.eq_of_not_cut fun _ _ => id

end SceneLogic

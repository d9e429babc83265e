import Mathlib.Logic.Function.Iterate
import SceneLogic.Proofs.Execution.Narrowing
import SceneLogic.Proofs.Execution.StaticCheck

/-!
# What a failure leaves

An instruction may be refused by the check or fail in its executor.  By then a condition may
have filled lists, but nothing has been done to the scene; an action fails before it has done
anything at all.

A run that fails has carried out all that came before the failure, and this stays.  What such
a step does not do is count: a scene counts the steps that succeed, and no others, however
the steps that fail are mixed with them and whatever events they ran.

## Main definitions

* `Host.stepWith` — a step of a scene that has been given events for it.
* `Host.stepEach` — one such step after another, those behind a failure included.

## Main statements

* `Registry.execute_builtin_of_error` — an instruction that ends with an error only narrows.
* `Scene.step_builtin` — a step keeps the frame of its scene, and counts if it succeeds.
* `Host.failure_leaves` — no failing instruction touches the scene, no failing step counts.
-/

namespace SceneLogic

/-! ## Instructions -/

namespace Builtin

/-- An instruction that lacks a name fails without effect; else it fails as it goes on. -/
theorem withName_of_failure {instruction : Instruction} {index : Nat} {what message : String}
    {context : Context} {next : String → Output × Context}
    (hfailure : (withName instruction index what context next).1 = .failure message)
    (hnext : ∀ name, (next name).1 = .failure message → (next name).2 = context) :
    (withName instruction index what context next).2 = context := by
  unfold withName at hfailure ⊢
  split at hfailure
  next name _ => exact hnext name hfailure
  next => rfl

/-- A built-in action fails over a missing name only, before it has done anything. -/
theorem eq_of_failure : ∀ entry ∈ operations, entry.definition.kind = .action →
    ∀ (instruction : Instruction) (context : Context) (message : String),
      (entry.execute instruction context).1 = .failure message →
        (entry.execute instruction context).2 = context := by
  have condition {inert : Prop} (h : InstructionKind.condition = .action) : inert :=
    absurd h (by decide)
  simp only [operations, List.forall_mem_cons]
  refine ⟨condition, condition, condition, ?setVariable, condition, condition, ?createObject,
    ?deleteObjects, ?setObjectVariable, condition, ?linkObjects, ?unlinkObjects,
    ?unlinkAllOfObject, ?callFunction, List.forall_mem_nil _⟩
  all_goals
    intro _ instruction context message hfailure
    refine withName_of_failure hfailure fun object hfailure => ?_
  -- What goes on with one name is done, or asks for a call.
  case setVariable | createObject | deleteObjects | unlinkAllOfObject | callFunction =>
    cases hfailure
  all_goals
    refine withName_of_failure hfailure fun second hfailure => ?_
    cases hfailure

end Builtin

namespace Registry

variable {instruction : Instruction} {kind : InstructionKind} {context : Context}
  {error : ExecutionError}

/-- An action that ends with an error leaves the context as it was. -/
theorem execute_builtin_action_of_error
    (herror : (builtin.execute instruction .action context).1 = .error error) :
    (builtin.execute instruction .action context).2 = context := by
  unfold execute at herror ⊢
  split at herror
  next => rfl
  next => rfl
  next executor hvalid hexecutor =>
    obtain ⟨operation, hget, hkind, -⟩ := exists_operation_of_validate hvalid
    rw [executor?, hget, Option.map_some, Option.some.injEq] at hexecutor
    subst hexecutor
    have hmem := (mem_operations_of_get?_builtin hget).1
    split at herror
    next message final heq =>
      have hfinal := Builtin.eq_of_failure operation hmem hkind instruction context message
      rw [heq] at hfinal
      exact hfinal rfl
    next => cases herror

/-- An instruction that ends with an error only narrows what is picked: a condition by what it
did before, an action not at all. -/
theorem execute_builtin_of_error
    (herror : (builtin.execute instruction kind context).1 = .error error) :
    context.Narrows (builtin.execute instruction kind context).2 := by
  cases kind with
  | condition => exact execute_builtin_narrows instruction context
  | action => rw [execute_builtin_action_of_error herror]

end Registry

/-! ## Steps -/

/-- A step keeps the frame of its scene, and counts if it succeeds. -/
theorem Scene.step_builtin (timeStep : Seconds) (scene : Scene) :
    ∃ middle, scene.SameFrame middle ∧
      (scene.step .builtin timeStep = (.ok (), middle.advance timeStep) ∨
        ∃ error, scene.step .builtin timeStep = (.error error, middle)) := by
  have hrun := (Registry.run_allowed scene.events defaultCallLimit scene.pruneLinks).1
  have hpruned : scene.SameFrame scene.pruneLinks := ⟨rfl, rfl, rfl, rfl⟩
  refine ⟨_, hpruned.trans hrun, ?_⟩
  unfold step
  split
  next final heq => exact .inl (by rw [heq])
  next error final heq => exact .inr ⟨error, by rw [heq]⟩

namespace Host

variable {host : Host} {id : SceneId} {scene : Scene}

/-- A step of the scene with an id, which is given events before. -/
def stepWith (host : Host) (id : SceneId) (events : EventTree) :
    Except StepError Unit × Host :=
  match host.scene? id with
  | none => host.step id
  | some scene => (host.setScene id { scene with events }).step id

/-- One step for each tree of events, in order.  A step that fails does not end them; the
outcomes of all are returned. -/
def stepEach (host : Host) (id : SceneId) : List EventTree → List (Except StepError Unit) × Host
  | [] => ([], host)
  | events :: rest =>
    let (outcome, host) := host.stepWith id events
    let (outcomes, host) := host.stepEach id rest
    (outcome :: outcomes, host)

/-- What a step with given events makes of a scene: it counts if it succeeds. -/
structure SteppedTo (timeStep : Seconds) (events : EventTree) (before after : Scene)
    (outcome : Except StepError Unit) : Prop where
  name : after.name = before.name
  events : after.events = events
  counts : outcome = .ok () →
    after.steps = before.steps + 1 ∧ after.elapsed = before.elapsed.add timeStep
  fails : ∀ error, outcome = .error error →
    after.steps = before.steps ∧ after.elapsed = before.elapsed

namespace SteppedTo

variable {timeStep : Seconds} {events : EventTree} {before after : Scene}
  {outcome : Except StepError Unit}

theorem steps_eq (h : SteppedTo timeStep events before after outcome) :
    after.steps = before.steps + if outcome.isOk then 1 else 0 := by
  cases outcome with
  | ok _ => exact (h.counts rfl).1
  | error error => exact (h.fails error rfl).1

theorem elapsed_eq (h : SteppedTo timeStep events before after outcome) :
    after.elapsed = (·.add timeStep)^[if outcome.isOk then 1 else 0] before.elapsed := by
  cases outcome with
  | ok _ => exact (h.counts rfl).2
  | error error => exact (h.fails error rfl).2

end SteppedTo

theorem stepWith_of_scene? (hscene : host.scene? id = some scene) (events : EventTree) :
    let result := Scene.step host.registry host.timeStep { scene with events }
    (host.stepWith id events).1 = result.1.mapError .failed ∧
      (host.stepWith id events).2.scene? id = some result.2 ∧
      (host.stepWith id events).2.registry = host.registry ∧
      (host.stepWith id events).2.timeStep = host.timeStep := by
  intro result
  have hgiven := scene?_setScene hscene { scene with events }
  simp only [stepWith, hscene, step_of_scene? hgiven]
  exact ⟨rfl, scene?_setScene hgiven result.2, rfl, rfl⟩

theorem steppedTo_stepWith (hbuiltin : host.registry = .builtin)
    (hscene : host.scene? id = some scene) (events : EventTree) :
    ∃ after, (host.stepWith id events).2.scene? id = some after ∧
      SteppedTo host.timeStep events scene after (host.stepWith id events).1 := by
  obtain ⟨houtcome, hafter, -⟩ := stepWith_of_scene? hscene events
  obtain ⟨middle, hframe, hstep⟩ := Scene.step_builtin host.timeStep { scene with events }
  rw [hbuiltin] at houtcome hafter
  rcases hstep with heq | ⟨error, heq⟩
  · rw [heq] at houtcome hafter
    rw [houtcome]
    refine ⟨_, hafter, hframe.name, hframe.events, fun _ => ⟨?_, ?_⟩, nofun⟩
    · exact congrArg (· + 1) hframe.steps
    · exact congrArg (·.add host.timeStep) hframe.elapsed
  · rw [heq] at houtcome hafter
    rw [houtcome]
    exact ⟨_, hafter, hframe.name, hframe.events, nofun,
      fun _ _ => ⟨hframe.steps, hframe.elapsed⟩⟩

/-- Along any sequence of steps a scene counts those that succeed.  The induction is on the
steps that are left, so it is over all scenes and hosts to begin with. -/
theorem scene?_stepEach (hbuiltin : host.registry = .builtin)
    (hscene : host.scene? id = some scene) (trees : List EventTree) :
    let succeeded := (host.stepEach id trees).1.countP (·.isOk)
    (host.stepEach id trees).2.registry = .builtin ∧
      (host.stepEach id trees).2.timeStep = host.timeStep ∧
      ∃ current, (host.stepEach id trees).2.scene? id = some current ∧
        current.name = scene.name ∧ current.events = trees.getLastD scene.events ∧
        current.steps = scene.steps + succeeded ∧
        current.elapsed = (·.add host.timeStep)^[succeeded] scene.elapsed := by
  induction trees generalizing host scene with
  | nil => exact ⟨hbuiltin, rfl, scene, hscene, rfl, rfl, rfl, rfl⟩
  | cons events rest ih =>
    obtain ⟨-, -, hregistry, htime⟩ := stepWith_of_scene? hscene events
    obtain ⟨after, hafter, hstepped⟩ := steppedTo_stepWith hbuiltin hscene events
    obtain ⟨hlast, hlastTime, current, hcurrent, hname, hevents, hsteps, helapsed⟩ :=
      ih (hregistry.trans hbuiltin) hafter
    rw [htime] at hlastTime helapsed
    refine ⟨hlast, hlastTime, current, hcurrent, hname.trans hstepped.name, ?_, ?_, ?_⟩
    · rw [hevents, hstepped.events, List.getLastD_cons]
    · simp only [stepEach, List.countP_cons]
      rw [hsteps, hstepped.steps_eq, Nat.add_assoc, Nat.add_comm (List.countP _ _)]
    · simp only [stepEach, List.countP_cons]
      rw [helapsed, hstepped.elapsed_eq, ← Function.iterate_add_apply]

/-- **A failing instruction leaves the scene, and a failing step does not count.**  Whatever
the instruction and its use are, and whatever is picked: if it ends with an error, because it
is refused or because it fails, the scene is exactly as it was.  A scene with the built-in
instructions may take any number of steps with any events.  Its name stays, it counts the
steps that succeeded and no others, and its time has gone on with each of these.  From there
each step with any events leaves the name and these events; it counts, and time goes on, if it
succeeds, and if it ends with an error both stay as they were. -/
theorem failure_leaves (hbuiltin : host.registry = .builtin)
    (hscene : host.scene? id = some scene) :
    (∀ instruction kind context error,
      (Registry.builtin.execute instruction kind context).1 = .error error →
      (Registry.builtin.execute instruction kind context).2.scene = context.scene) ∧
    ∀ trees : List EventTree,
      let outcomes := (host.stepEach id trees).1
      let reached := (host.stepEach id trees).2
      ∃ current, reached.scene? id = some current ∧ current.name = scene.name ∧
        current.events = trees.getLastD scene.events ∧
        current.steps = scene.steps + outcomes.countP (·.isOk) ∧
        current.elapsed = (·.add host.timeStep)^[outcomes.countP (·.isOk)] scene.elapsed ∧
        ∀ events, ∃ after, (reached.stepWith id events).2.scene? id = some after ∧
          SteppedTo host.timeStep events current after (reached.stepWith id events).1 := by
  refine ⟨fun instruction kind context error herror =>
    (Registry.execute_builtin_of_error herror).scene, fun trees => ?_⟩
  intro outcomes reached
  obtain ⟨hregistry, htime, current, hcurrent, hname, hevents, hsteps, helapsed⟩ :=
    scene?_stepEach hbuiltin hscene trees
  refine ⟨current, hcurrent, hname, hevents, hsteps, helapsed, fun events => ?_⟩
  have hnext := steppedTo_stepWith hregistry hcurrent events
  rwa [htime] at hnext

/-- Events that mark the scene, and then compare what is not a number of coins. -/
def strayTree : EventTree :=
  markingScene.events ++ [.branch ⟨false, false⟩
    (.standard ⟨[⟨"objects/Count", ["Coin", "about", "1"], false⟩], []⟩) []]

/-- Between two steps that succeed one fails, after it has marked the scene: two steps are
counted.  Another step that fails is not counted either.  By the time it fails a comparison of
coins has filled their list, but the scene is as it was. -/
theorem failure_leaves_of_strayTree :
    let host := after .builtin .zero [.start markingScene]
    let trees := [markingScene.events, strayTree, markingScene.events]
    let count : Instruction := ⟨"objects/Count", ["Coin", "about", "1"], false⟩
    let context : Context := ⟨coinsAndPurse, ∅⟩
    (Registry.builtin.execute count .condition context).1 =
        .error (.instructionFailed "objects/Count" "unknown operator about") ∧
      (Registry.builtin.execute count .condition context).2 ≠ context ∧
      (Registry.builtin.execute count .condition context).2.scene = coinsAndPurse ∧
      (host.stepEach 0 trees).1 = [.ok (),
        .error (.failed (.instructionFailed "objects/Count" "unknown operator about")), .ok ()] ∧
      ∃ current, (host.stepEach 0 trees).2.scene? 0 = some current ∧ current.steps = 2 ∧
        ∃ after, ((host.stepEach 0 trees).2.stepWith 0 callingScene.events).2.scene? 0 =
          some after ∧ after.steps = 2 ∧ after.events = callingScene.events := by
  intro host trees count context
  have hfails : (Registry.builtin.execute count .condition context).1 =
      .error (.instructionFailed "objects/Count" "unknown operator about") := by decide +kernel
  have houtcomes : (host.stepEach 0 trees).1 = [.ok (),
      .error (.failed (.instructionFailed "objects/Count" "unknown operator about")),
      .ok ()] := by decide +kernel
  have hscene : host.scene? 0 = some markingScene := rfl
  obtain ⟨hinert, hsteps⟩ := failure_leaves rfl hscene
  obtain ⟨current, hcurrent, -, -, hcounted, -, hnext⟩ := hsteps trees
  obtain ⟨after, hafter, hstepped⟩ := hnext callingScene.events
  have hsecond : ((host.stepEach 0 trees).2.stepWith 0 callingScene.events).1 =
      .error (.failed (.functionNotFound "Missing")) := by decide +kernel
  have htwo : current.steps = 2 := by
    rw [hcounted, houtcomes]
    rfl
  exact ⟨hfails, by decide +kernel, hinert count .condition context _ hfails, houtcomes, current,
    hcurrent, htwo, after, hafter, (hstepped.fails _ hsecond).1.trans htwo, hstepped.events⟩

end Host

end SceneLogic

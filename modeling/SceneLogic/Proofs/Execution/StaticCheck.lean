import SceneLogic.Proofs.Execution.Host
import SceneLogic.Proofs.Execution.Builtin
import SceneLogic.Proofs.Execution.Contract

/-!
# What a check of a tree foresees

Checking a tree walks over all its events once; running it enters functions by name,
as often as they are called.  With the built-in instructions the check misses nothing
that can be known beforehand: an error that ends a run is in the list that the check
gives, unless it is about the depth of calls or about an operator, which is a value
that instructions compute.

## Main definitions

* `ExecutionError.IsStatic` — the errors that a check can report.
* `ExecutionError.IsDynamic` — the errors that only a run can show.

## Main statements

* `run_error_is_foreseen` — every error of a run is of the first sort and reported by
  the check, or of the second.
-/

namespace SceneLogic

/-! ## Errors -/

/-- The errors that a check of a tree can report. -/
def ExecutionError.IsStatic : ExecutionError → Prop
  | .unknownInstruction _ _ | .kindMismatch _ _ _ | .arityMismatch _ _ _ _
  | .functionNotFound _ => True
  | .instructionFailed _ _ | .callDepthExceeded _ => False

/-- The errors that only a run can show, when calls may nest up to a limit. -/
inductive ExecutionError.IsDynamic (limit : Nat) : ExecutionError → Prop where
  | depth : IsDynamic limit (.callDepthExceeded limit)
  | unknownOperator {operation sign : String}
    (id : operation = "variables/Compare" ∨ operation = "objects/Count")
    (unknown : Comparison.ofSign? sign = none) :
    IsDynamic limit (.instructionFailed operation ("unknown operator " ++ sign))

/-- An operator that does not exist is not a parameter that is missing. -/
theorem ExecutionError.IsDynamic.ne_missing {limit : Nat} {error : ExecutionError}
    (h : error.IsDynamic limit) (operation what : String) :
    error ≠ .instructionFailed operation ("missing " ++ what) := by
  intro heq
  cases h with
  | depth => cases heq
  | unknownOperator id unknown =>
    have hmessage := (ExecutionError.instructionFailed.inj heq).2
    have hfirst := congrArg (fun text => text.toList.head?) hmessage
    simp [String.toList_append] at hfirst

namespace Registry

variable {registry : Registry} {instruction : Instruction} {kind : InstructionKind}
  {tree : EventTree}

theorem isStatic_of_validate {error : ExecutionError}
    (h : registry.validate instruction kind = .error error) : error.IsStatic := by
  unfold validate at h
  split at h
  · cases h; trivial
  · dsimp only at h
    split at h
    · cases h; trivial
    · split at h
      · cases h; trivial
      · cases h

/-! ## What the check reports -/

/-- What is wrong with an instruction that the tree uses is reported. -/
theorem mem_validateEvents_of_problem? (hmem : (kind, instruction) ∈ tree.uses)
    {error : ExecutionError} (h : registry.problem? tree kind instruction = some error) :
    error ∈ registry.validateEvents tree := by
  obtain ⟨event, hvisited, huse⟩ := List.mem_flatMap.1 hmem
  obtain ⟨⟨depth, visited⟩, hvisit, rfl⟩ := List.mem_map.1 hvisited
  refine List.mem_flatMap.2 ⟨_, hvisit, ?_⟩
  simp only [Event.uses] at huse
  cases hbody : visited.body? with
  | none => simp [hbody] at huse
  | some body =>
    simp only [hbody, Option.map_some, Option.getD_some, Body.uses, List.mem_append,
      List.mem_map, Prod.mk.injEq] at huse
    simp only [Event.instructionLists, hbody, List.flatMap_cons, List.flatMap_nil,
      List.append_nil, List.mem_append, List.mem_filterMap]
    rcases huse with ⟨condition, hin, rfl, rfl⟩ | ⟨action, hin, rfl, rfl⟩
    · exact .inl ⟨condition, hin, h⟩
    · exact .inr ⟨action, hin, h⟩

theorem problem?_of_validate {error : ExecutionError}
    (h : registry.validate instruction kind = .error error) :
    registry.problem? tree kind instruction = some error := by
  simp [problem?, h]

/-- An instruction that passes and calls a function that the tree lacks is a problem. -/
theorem problem?_of_missing {definition : Definition} {name : String}
    (h : registry.validate instruction kind = .ok definition)
    (hcall : instruction.operation = callOperation) (hname : instruction.name? 0 = some name)
    (missing : EventTree.findFunction? name tree = none) :
    registry.problem? tree kind instruction = some (.functionNotFound name) := by
  simp [problem?, h, hcall, hname, missing]

/-! ## What a run ends with -/

/-- The errors that the check of a tree foresees, and those that it cannot. -/
def Foreseen (tree : EventTree) (limit : Nat) (error : ExecutionError) : Prop :=
  error.IsStatic ∧ error ∈ builtin.validateEvents tree ∨ error.IsDynamic limit

/-- What the check of a tree says about its runs.  Functions may be asked for unless
they are missing without being reported. -/
def foresight (tree : EventTree) (limit : Nat) : Contract where
  later := Scene.SameFrame
  fault := Foreseen tree limit
  asked name := EventTree.findFunction? name tree = none →
    .functionNotFound name ∈ builtin.validateEvents tree

/-- Every single instruction of a tree keeps to what the check says. -/
theorem respected_foresight (tree : EventTree) (limit : Nat) :
    (foresight tree limit).Respected builtin tree.uses where
  refl := Scene.SameFrame.refl
  trans := Scene.SameFrame.trans
  execute {kind instruction} hmem context := by
    have hstep := execute_builtin instruction kind context
    generalize builtin.execute instruction kind context = step at hstep ⊢
    cases hstep with
    | refused invalid =>
      refine ⟨.refl _, fun error h => ?_⟩
      cases h
      exact .inl ⟨isStatic_of_validate invalid,
        mem_validateEvents_of_problem? hmem (problem?_of_validate invalid)⟩
    | answered valid id ofKind fits frame =>
      refine ⟨frame, fun error h => ?_⟩
      cases fits with
      | unknownOperator known unknown =>
        cases h
        exact .inr (.unknownOperator (id ▸ known) unknown)
      | done _ | truth _ _ | call _ _ _ _ => cases h
  truth {instruction context output} hmem heq hnone := by
    have hstep := execute_builtin instruction .condition context
    generalize builtin.execute instruction .condition context = step at hstep heq
    cases hstep with
    | refused invalid => cases heq
    | answered valid id ofKind fits frame =>
      cases fits with
      | truth _ _ => cases heq; cases hnone
      | unknownOperator _ _ => cases heq
      | done isAction | call isAction _ _ _ => cases ofKind.symm.trans isAction
  call {instruction context function objects} hmem heq := by
    have hstep := execute_builtin instruction .action context
    generalize builtin.execute instruction .action context = step at hstep heq
    cases hstep with
    | refused invalid => cases heq
    | answered valid id ofKind fits frame =>
      cases fits with
      | call _ isCall named _ =>
        cases heq
        intro missing
        exact mem_validateEvents_of_problem? hmem
          (problem?_of_missing valid (id.symm.trans isCall) named missing)
      | done _ | truth _ _ | unknownOperator _ _ => cases heq

/-- A run keeps the frame of its scene and ends in no error that was not foreseen. -/
theorem run_allowed (tree : EventTree) (limit : Nat) (scene : Scene) :
    (foresight tree limit).Allows scene (EventTree.run builtin limit tree scene).1
      (EventTree.run builtin limit tree scene).2 :=
  (respected_foresight tree limit).run (.inr .depth)
    (fun asked missing => .inl ⟨trivial, asked missing⟩) scene

end Registry

/-! ## Steps of a scene -/

namespace Scene

/-- A step ends as the run of the events does, after the links were pruned. -/
theorem step_fst (registry : Registry) (timeStep : Seconds) (scene : Scene) :
    (scene.step registry timeStep).1 =
      (EventTree.run registry defaultCallLimit scene.events scene.pruneLinks).1 := by
  simp only [step]
  split
  next heq => rw [heq]
  next heq => rw [heq]

/-- A step with the built-in instructions leaves the events of the scene as they are. -/
theorem events_step (timeStep : Seconds) (scene : Scene) :
    (scene.step .builtin timeStep).2.events = scene.events := by
  have hrun := (Registry.run_allowed scene.events defaultCallLimit scene.pruneLinks).1
  simp only [step]
  split
  next final heq =>
    rw [heq] at hrun
    exact hrun.events
  next error final heq =>
    rw [heq] at hrun
    exact hrun.events

end Scene

/-- With the built-in instructions, a tree in which the check finds nothing fails in no
way that the check could have foreseen. -/
theorem ExecutionError.isDynamic_of_checked {tree : EventTree} {limit : Nat} {scene : Scene}
    {error : ExecutionError} (checked : Registry.builtin.validateEvents tree = [])
    (h : (EventTree.run .builtin limit tree scene).1 = .error error) : error.IsDynamic limit := by
  rcases (Registry.run_allowed tree limit scene).2 error h with ⟨_, hmem⟩ | hdynamic
  · rw [checked] at hmem
    cases hmem
  · exact hdynamic

/-- The same over any number of steps.  The induction carries along that the scene goes
on with the events that were checked. -/
theorem Host.isDynamic_of_steps {host : Host} {id : SceneId} {scene : Scene} {count : Nat}
    {error : StepError} (builtin : host.registry = .builtin) (running : host.scene? id = some scene)
    (checked : Registry.builtin.validateEvents scene.events = [])
    (h : (host.steps id count).1 = .error error) :
    ∃ cause, error = .failed cause ∧ cause.IsDynamic defaultCallLimit := by
  induction count generalizing host scene with
  | zero => cases h
  | succ count ih =>
    simp only [steps, step_of_scene? running, builtin] at h
    cases hstep : (scene.step .builtin host.timeStep).1 with
    | error cause =>
      rw [hstep] at h
      cases h
      rw [Scene.step_fst] at hstep
      exact ⟨cause, rfl, ExecutionError.isDynamic_of_checked checked hstep⟩
    | ok _ =>
      rw [hstep] at h
      have hrunning := scene?_setScene running (scene.step .builtin host.timeStep).2
      have hregistry : (host.setScene id (scene.step .builtin host.timeStep).2).registry =
          .builtin := builtin
      rw [← Scene.events_step host.timeStep scene] at checked
      exact ih hregistry hrunning checked h

/-- No built-in instruction that is carried out lacks a parameter. -/
theorem Registry.execute_builtin_ne_missing (instruction : Instruction) (kind : InstructionKind)
    (context : Context) (operation what : String) :
    (builtin.execute instruction kind context).1 ≠
      .error (.instructionFailed operation ("missing " ++ what)) := by
  intro h
  have hstep := execute_builtin instruction kind context
  generalize builtin.execute instruction kind context = step at hstep h
  cases hstep with
  | refused invalid =>
    have hstatic := isStatic_of_validate invalid
    cases h
    exact hstatic
  | answered valid id ofKind fits frame =>
    cases fits with
    | unknownOperator known unknown =>
      have hdynamic : ExecutionError.IsDynamic 0
          (.instructionFailed instruction.operation ("unknown operator " ++ _)) :=
        .unknownOperator (id ▸ known) unknown
      exact hdynamic.ne_missing operation what (Except.error.inj h)
    | done _ | truth _ _ | call _ _ _ _ => cases h

/-! ## The check is sound -/

/-- **The check foresees every error of a run**, for the built-in instructions, whatever
the scene and the limit of calls.  What it cannot foresee is the depth of calls and an
operator that does not exist.  A scene whose events pass the check fails in no other way,
however many steps it makes, and no instruction ever finds a parameter missing. -/
theorem run_error_is_foreseen (tree : EventTree) (limit : Nat) :
    (∀ scene error, (EventTree.run .builtin limit tree scene).1 = .error error →
      error.IsStatic ∧ error ∈ Registry.builtin.validateEvents tree ∨ error.IsDynamic limit) ∧
    (∀ (host : Host) id scene count error, Registry.builtin.validateEvents tree = [] →
      host.registry = .builtin → host.scene? id = some scene → scene.events = tree →
      (host.steps id count).1 = .error error →
      ∃ cause, error = .failed cause ∧ cause.IsDynamic defaultCallLimit) ∧
    ∀ instruction kind context operation what,
      (Registry.builtin.execute instruction kind context).1 ≠
        .error (.instructionFailed operation ("missing " ++ what)) := by
  refine ⟨?_, ?_, Registry.execute_builtin_ne_missing⟩
  · intro scene error h
    exact (Registry.run_allowed tree limit scene).2 error h
  · intro host id scene count error checked builtin running hevents h
    subst hevents
    exact Host.isDynamic_of_steps builtin running checked h

/-- A body that calls one function. -/
def callingBody (name : String) : Body := ⟨[], [⟨callOperation, [name], false⟩]⟩

/-- An event that calls a function, a sub-event of which calls one that is missing. -/
def brokenTree : EventTree :=
  [.branch ⟨false, false⟩ (.function ⟨"Outer", ""⟩ ⟨[], []⟩)
      [.branch ⟨false, false⟩ (.standard (callingBody "Missing")) []],
    .branch ⟨false, false⟩ (.standard (callingBody "Outer")) []]

/-- A comparison with an operator that does not exist, before its variable is set: the
first step passes over it. -/
def lateTree : EventTree :=
  [.branch ⟨false, false⟩ (.standard ⟨[⟨"variables/Compare", ["x", "~", "1"], false⟩], []⟩) [],
    .branch ⟨false, false⟩ (.standard ⟨[], [⟨"variables/Set", ["x", "1"], false⟩]⟩) []]

/-- A host in which one scene runs with these events. -/
def lateHost : Host :=
  ((Host.new .builtin .zero).start { Scene.named "scene" with events := lateTree }).2

/-- A call that is missing two levels below a call is foreseen; a tree that passes the
check fails in its second step over an operator. -/
theorem run_error_is_foreseen_of_trees :
    (EventTree.run .builtin 8 brokenTree (Scene.named "scene")).1 =
        .error (.functionNotFound "Missing") ∧
      ((ExecutionError.functionNotFound "Missing").IsStatic ∧
        .functionNotFound "Missing" ∈ Registry.builtin.validateEvents brokenTree ∨
          (ExecutionError.functionNotFound "Missing").IsDynamic 8) ∧
      (lateHost.steps 0 2).1 =
        .error (.failed (.instructionFailed "variables/Compare" "unknown operator ~")) ∧
      ∃ cause, StepError.failed (.instructionFailed "variables/Compare" "unknown operator ~") =
        .failed cause ∧ cause.IsDynamic defaultCallLimit := by
  have hbroken : (EventTree.run .builtin 8 brokenTree (Scene.named "scene")).1 =
      .error (.functionNotFound "Missing") := by decide +kernel
  have hchecked : Registry.builtin.validateEvents lateTree = [] := by decide +kernel
  have hlate : (lateHost.steps 0 2).1 =
      .error (.failed (.instructionFailed "variables/Compare" "unknown operator ~")) := by
    decide +kernel
  exact ⟨hbroken, (run_error_is_foreseen brokenTree 8).1 _ _ hbroken, hlate,
    (run_error_is_foreseen lateTree 8).2.1 lateHost 0 _ 2 _ hchecked rfl rfl rfl hlate⟩

end SceneLogic

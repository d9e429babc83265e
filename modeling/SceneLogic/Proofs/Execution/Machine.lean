import Mathlib.Logic.Function.Iterate
import SceneLogic.Proofs.Execution.Equations

/-!
# Runs step by step

A machine runs the events of a tree one small step after another: an event is entered, an
instruction is carried out, a function is called, a list of events is done.  What has begun
and is not done yet lies on a stack.  Nothing in the machine bounds the number of steps: a
function may call itself, and a call leaves more to do than there was before.  What the
machine does count is in how many calls a part of the run is nested, and it refuses a call
where this count has reached the limit.

The machine halts all the same, where the run of the tree ends: the induction is over events
and over the calls that may still nest.

## Main definitions

* `Machine`, `Machine.step` — a machine and what it does at a moment.
* `Machine.State` — a run in progress, or how it ended.
* `Machine.State.active` — the functions that are active.
* `Machine.Step` — the kinds of steps; `Machine.Reaches` — some steps lead from here to there.

## Main statements

* `Machine.step_running` — every step is of one of the kinds.
* `Machine.reaches_events`, `Machine.followsCalls_callFrom` — the machine gets to where the
  run of events, or a call, ends.
* `Machine.reaches_startRun`, `Machine.reaches_startCall` — so do runs and calls from outside.
-/

namespace SceneLogic

/-- What a run needs to know from the start to the end. -/
structure Machine where
  registry : Registry
  tree : EventTree
  limit : Nat

namespace Machine

/-- What is left to do of a list of events, of the conditions of a body, or of its actions. -/
inductive Work where
  | events (left : List Event)
  | conditions (left actions : List Instruction) (events : List Event)
  | actions (left : List Instruction) (events : List Event)

/-- A part of a run that has begun: what is left to do, what is picked by now, in how many
calls it is nested, and the function that it is the body of, if it is one. -/
structure Frame where
  work : Work
  picking : Picking
  depth : Nat
  function : Option Function

/-- A run in progress, with the innermost part first, or how it ended. -/
inductive State where
  | running (frames : List Frame) (scene : Scene)
  | halted (result : Except ExecutionError Unit) (scene : Scene)

namespace State

/-- The scene as it is at the moment. -/
def scene : State → Scene
  | running _ scene | halted _ scene => scene

/-- The parts that have begun and are not done. -/
def frames : State → List Frame
  | running frames _ => frames
  | halted _ _ => []

/-- The functions whose bodies have begun and are not done, the innermost first. -/
def active (state : State) : List Function := state.frames.filterMap (·.function)

end State

/-! ## Steps -/

/-- What is to be done for an event where it stands, if there is anything. -/
def workOf? : Event → Option Work
  | .branch flags header events =>
    if flags.disabled then none
    else
      match header with
      | .standard body => some (.conditions body.conditions body.actions events)
      | .group _ => some (.events events)
      | .function _ _ => none
  | .comment _ _ => none

/-- What is to be done for a function that is called. -/
def callWork (function : Function) : Work :=
  .conditions function.body.conditions function.body.actions function.events

/-- Enter an event; what is entered starts from what is picked around it. -/
def enter (event : Event) (frame : Frame) (frames : List Frame) (scene : Scene) : State :=
  match workOf? event with
  | some work => .running (⟨work, frame.picking, frame.depth, none⟩ :: frame :: frames) scene
  | none => .running (frame :: frames) scene

/-- Call a function for the innermost part. -/
def call (machine : Machine) (name : String) (objects : Option String) (caller : Frame)
    (frames : List Frame) (scene : Scene) : State :=
  if machine.limit ≤ caller.depth then .halted (.error (.callDepthExceeded machine.limit)) scene
  else
    match EventTree.findFunction? name machine.tree with
    | none => .halted (.error (.functionNotFound name)) scene
    | some function =>
      if function.flags.disabled then .running (caller :: frames) scene
      else
        let (lists, picking) := bindArgument function objects ⟨scene, caller.picking⟩
        .running (⟨callWork function, lists, caller.depth + 1, some function⟩ ::
          { caller with picking } :: frames) scene

/-- Test a condition of the innermost part, which is left if it does not pass. -/
def test (machine : Machine) (condition : Instruction) (frame : Frame) (frames : List Frame)
    (scene : Scene) : State :=
  match machine.registry.execute condition .condition ⟨scene, frame.picking⟩ with
  | (.error error, context) => .halted (.error error) context.scene
  | (.ok output, context) =>
    match output.truth? with
    | none =>
      .halted (.error (.instructionFailed condition.operation "condition produced no result"))
        context.scene
    | some holds =>
      if holds = condition.inverted then .running frames context.scene
      else .running ({ frame with picking := context.picking } :: frames) context.scene

/-- Carry out an action of the innermost part, which may ask for a call. -/
def act (machine : Machine) (action : Instruction) (frame : Frame) (frames : List Frame)
    (scene : Scene) : State :=
  match machine.registry.execute action .action ⟨scene, frame.picking⟩ with
  | (.error error, context) => .halted (.error error) context.scene
  | (.ok (.call name objects), context) =>
    machine.call name objects { frame with picking := context.picking } frames context.scene
  | (.ok _, context) =>
    .running ({ frame with picking := context.picking } :: frames) context.scene

/-- What the machine does at a moment.  It rests when the run has ended. -/
def step (machine : Machine) : State → State
  | .halted result scene => .halted result scene
  | .running [] scene => .halted (.ok ()) scene
  | .running (frame :: frames) scene =>
    match frame.work with
    | .events [] => .running frames scene
    | .events (event :: left) => enter event { frame with work := .events left } frames scene
    | .conditions [] actions events =>
      .running ({ frame with work := .actions actions events } :: frames) scene
    | .conditions (condition :: left) actions events =>
      machine.test condition { frame with work := .conditions left actions events } frames scene
    | .actions [] events => .running ({ frame with work := .events events } :: frames) scene
    | .actions (action :: left) events =>
      machine.act action { frame with work := .actions left events } frames scene

/-- The start of a run of all events of the tree. -/
def startRun (machine : Machine) (context : Context) : State :=
  .running [⟨.events machine.tree, context.picking, 0, none⟩] context.scene

/-- The start of a call from outside. -/
def startCall (machine : Machine) (name : String) (objects : Option String) (context : Context) :
    State :=
  machine.call name objects ⟨.events [], context.picking, 0, none⟩ [] context.scene

variable {machine : Machine} {start middle final : State} {frame : Frame} {frames : List Frame}
  {scene : Scene} {call : Call} {depth : Nat}

/-! ## The kinds of steps -/

/-- What an instruction may have made of the context of the innermost part, if the step
carries one out at all. -/
def Carried (machine : Machine) (frame : Frame) (scene : Scene) (context : Context) : Prop :=
  context = ⟨scene, frame.picking⟩ ∨ ∃ instruction kind,
    context = (machine.registry.execute instruction kind ⟨scene, frame.picking⟩).2

/-- The kinds of steps: the run fails; the innermost part is left, or goes on; an event is
entered from it; a function is called, where calls do not nest too deep. -/
inductive Step (machine : Machine) (frame : Frame) (frames : List Frame) (scene : Scene) :
    State → Prop where
  | fail {context : Context} (carried : machine.Carried frame scene context)
    (error : ExecutionError) :
    Step machine frame frames scene (.halted (.error error) context.scene)
  | leave {context : Context} (carried : machine.Carried frame scene context) :
    Step machine frame frames scene (.running frames context.scene)
  | goOn {context : Context} (carried : machine.Carried frame scene context) (work : Work) :
    Step machine frame frames scene
      (.running ({ frame with work, picking := context.picking } :: frames) context.scene)
  | enter (work inner : Work) :
    Step machine frame frames scene
      (.running (⟨inner, frame.picking, frame.depth, none⟩ :: { frame with work } :: frames) scene)
  | call {context : Context} (carried : machine.Carried frame scene context)
    (room : frame.depth < machine.limit) (function : Function) (objects : Option String)
    (work : Work) :
    Step machine frame frames scene
      (.running (⟨callWork function, (bindArgument function objects context).1,
          frame.depth + 1, some function⟩ ::
        { frame with work, picking := (bindArgument function objects context).2 } :: frames)
        context.scene)

theorem step_call {context : Context} (carried : machine.Carried frame scene context)
    (name : String) (objects : Option String) (work : Work) :
    machine.Step frame frames scene
      (machine.call name objects { frame with work, picking := context.picking } frames
        context.scene) := by
  unfold Machine.call
  split
  · exact .fail carried _
  next hroom =>
    split
    · exact .fail carried _
    next function _ =>
      split
      · exact .goOn carried work
      · exact .call carried (Nat.lt_of_not_le hroom) function objects work

/-- A call does nothing to the scene before the body of the function begins. -/
theorem scene_call (machine : Machine) (name : String) (objects : Option String) (caller : Frame)
    (frames : List Frame) (scene : Scene) :
    (machine.call name objects caller frames scene).scene = scene := by
  simp only [Machine.call]
  split
  next => rfl
  next =>
    split
    next => rfl
    next => split <;> rfl

/-- Every step is of one of the kinds. -/
theorem step_running (machine : Machine) (frame : Frame) (frames : List Frame) (scene : Scene) :
    machine.Step frame frames scene (machine.step (.running (frame :: frames) scene)) := by
  have idle : machine.Carried frame scene ⟨scene, frame.picking⟩ := .inl rfl
  have carried : ∀ instruction kind, machine.Carried frame scene
      (machine.registry.execute instruction kind ⟨scene, frame.picking⟩).2 :=
    fun instruction kind => .inr ⟨instruction, kind, rfl⟩
  unfold step
  dsimp only
  split
  next => exact .leave idle
  next event left _ =>
    unfold Machine.enter
    split
    next inner _ => exact .enter (.events left) inner
    next => exact .goOn idle (.events left)
  next actions events _ => exact .goOn idle (.actions actions events)
  next condition left actions events _ =>
    have hcarried := carried condition .condition
    unfold test
    dsimp only
    split
    next error context heq =>
      rw [heq] at hcarried
      exact .fail hcarried error
    next output context heq =>
      rw [heq] at hcarried
      split
      · exact .fail hcarried _
      · split
        · exact .leave hcarried
        · exact .goOn hcarried _
  next events _ => exact .goOn idle (.events events)
  next action left events _ =>
    have hcarried := carried action .action
    unfold act
    dsimp only
    split
    next error context heq =>
      rw [heq] at hcarried
      exact .fail hcarried error
    next name objects context heq =>
      rw [heq] at hcarried
      exact step_call hcarried name objects (.actions left events)
    next output context _ heq =>
      rw [heq] at hcarried
      exact .goOn hcarried _

/-! ## What is reached -/

/-- Some steps lead from one state to another. -/
def Reaches (machine : Machine) (start final : State) : Prop :=
  ∃ count, machine.step^[count] start = final

namespace Reaches

theorem refl (machine : Machine) (state : State) : machine.Reaches state state := ⟨0, rfl⟩

theorem trans (hfirst : machine.Reaches start middle) (hsecond : machine.Reaches middle final) :
    machine.Reaches start final := by
  obtain ⟨first, rfl⟩ := hfirst
  obtain ⟨second, rfl⟩ := hsecond
  exact ⟨second + first, Function.iterate_add_apply _ _ _ _⟩

/-- What is reached after a step is reached from before it. -/
theorem of_step (h : machine.Reaches (machine.step start) final) : machine.Reaches start final := by
  obtain ⟨count, rfl⟩ := h
  exact ⟨count + 1, rfl⟩

end Reaches

theorem iterate_step_halted (machine : Machine) (result : Except ExecutionError Unit)
    (scene : Scene) (count : Nat) :
    machine.step^[count] (.halted result scene) = .halted result scene :=
  Function.iterate_fixed rfl count

/-- Once a run has ended it stays so. -/
theorem Reaches.exists_forall_le {result : Except ExecutionError Unit}
    (h : machine.Reaches start (.halted result scene)) :
    ∃ last, ∀ moment, last ≤ moment → machine.step^[moment] start = .halted result scene := by
  obtain ⟨last, hlast⟩ := h
  refine ⟨last, fun moment hle => ?_⟩
  obtain ⟨more, rfl⟩ := Nat.exists_eq_add_of_le' hle
  rw [Function.iterate_add_apply, hlast, iterate_step_halted]

/-- The state after a part of a run has ended with this outcome. -/
def State.after (frames : List Frame) : Except ExecutionError Unit × Scene → State
  | (.ok (), scene) => .running frames scene
  | (.error error, scene) => .halted (.error error) scene

/-- The state after the innermost part has called a function, or carried out actions. -/
def State.afterActions (frame : Frame) (frames : List Frame) :
    Except ExecutionError Unit × Context → State
  | (.ok (), context) =>
    .running ({ frame with picking := context.picking } :: frames) context.scene
  | (.error error, context) => .halted (.error error) context.scene

/-- The machine does, for a part of the run that is nested this deep, what `call` does. -/
def FollowsCalls (machine : Machine) (call : Call) (depth : Nat) : Prop :=
  ∀ name objects (frame : Frame) frames scene, frame.depth = depth →
    machine.Reaches (machine.call name objects frame frames scene)
      (.afterActions frame frames (call name objects ⟨scene, frame.picking⟩))

/-! ## Bodies -/

/-- All conditions are tested, or the part is left at the first that does not pass. -/
theorem reaches_conditions (machine : Machine) (left actions : List Instruction)
    (events : List Event) (frame : Frame) (frames : List Frame) (scene : Scene) :
    machine.Reaches
      (.running ({ frame with work := .conditions left actions events } :: frames) scene)
      (match conditionsPass machine.registry left ⟨scene, frame.picking⟩ with
        | (.error error, context) => .halted (.error error) context.scene
        | (.ok false, context) => .running frames context.scene
        | (.ok true, context) =>
          .running ({ frame with work := .actions actions events, picking := context.picking } ::
            frames) context.scene) := by
  induction left generalizing frame scene with
  | nil => exact .of_step (.refl machine _)
  | cons condition left ih =>
    refine .of_step ?_
    simp only [step, test, conditionsPass]
    rcases machine.registry.execute condition .condition ⟨scene, frame.picking⟩ with
      ⟨error | output, context⟩
    · exact .refl machine _
    · dsimp only
      cases output.truth? with
      | none => exact .refl machine _
      | some holds =>
        dsimp only
        by_cases hend : holds = condition.inverted
        · simp only [hend, if_true]
          exact .refl machine _
        · simp only [hend, if_false]
          exact ih { frame with picking := context.picking } context.scene

theorem reaches_actions (frame : Frame) (hcalls : machine.FollowsCalls call frame.depth)
    (left : List Instruction) (events : List Event) (frames : List Frame) (scene : Scene) :
    machine.Reaches (.running ({ frame with work := .actions left events } :: frames) scene)
      (.afterActions { frame with work := .events events } frames
        (runActions machine.registry call left ⟨scene, frame.picking⟩)) := by
  induction left generalizing frame scene with
  | nil => exact .of_step (.refl machine _)
  | cons action left ih =>
    refine .of_step ?_
    simp only [step, act, runActions, runAction]
    rcases machine.registry.execute action .action ⟨scene, frame.picking⟩ with
      ⟨error | output, context⟩
    · exact .refl machine _
    · cases output with
      | call name objects =>
        have hcalled := hcalls name objects
          { frame with work := .actions left events, picking := context.picking } frames
          context.scene rfl
        refine hcalled.trans ?_
        dsimp only
        rcases call name objects context with ⟨error | _, context⟩
        · exact .refl machine _
        · exact ih { frame with picking := context.picking } hcalls context.scene
      | done | truth holds | failure message =>
        exact ih { frame with picking := context.picking } hcalls context.scene

/-- A body is run to its end, if its sub-events are. -/
theorem reaches_function (hcalls : machine.FollowsCalls call depth) (function : Function)
    (hevents : ∀ picking owner frames scene,
      machine.Reaches (.running (⟨.events function.events, picking, depth, owner⟩ :: frames) scene)
        (.after frames (EventTree.runFrom machine.registry call function.events picking scene)))
    (picking : Picking) (owner : Option Function) (frames : List Frame) (scene : Scene) :
    machine.Reaches (.running (⟨callWork function, picking, depth, owner⟩ :: frames) scene)
      (.after frames (function.runFrom machine.registry call ⟨scene, picking⟩)) := by
  have hconditions := reaches_conditions machine function.body.conditions function.body.actions
    function.events ⟨callWork function, picking, depth, owner⟩ frames scene
  refine hconditions.trans ?_
  simp only [Function.runFrom, runBody]
  rcases conditionsPass machine.registry function.body.conditions ⟨scene, picking⟩ with
    ⟨error | _ | _, context⟩
  · exact .refl machine _
  · exact .refl machine _
  · have hactions := reaches_actions ⟨callWork function, context.picking, depth, owner⟩ hcalls
      function.body.actions function.events frames context.scene
    refine hactions.trans ?_
    dsimp only
    rcases runActions machine.registry call function.body.actions context with ⟨error | _, context⟩
    · exact .refl machine _
    · exact hevents context.picking owner frames context.scene

/-! ## Events -/

mutual

/-- An event is run to its end, before the events behind it. -/
theorem reaches_event (hcalls : machine.FollowsCalls call depth) :
    ∀ (event : Event) (left : List Event) (picking : Picking) (owner : Option Function)
      (frames : List Frame) (scene : Scene),
      machine.Reaches (.running (⟨.events (event :: left), picking, depth, owner⟩ :: frames) scene)
        (.after (⟨.events left, picking, depth, owner⟩ :: frames)
          (event.runFrom machine.registry call picking scene))
  | .comment _ _, left, picking, owner, frames, scene => .of_step (.refl machine _)
  | .branch ⟨true, folded⟩ header events, left, picking, owner, frames, scene =>
    .of_step (.refl machine _)
  | .branch ⟨false, folded⟩ (.standard body) events, left, picking, owner, frames, scene => by
    let function : Function := ⟨⟨false, folded⟩, ⟨"", ""⟩, body, events⟩
    rw [Event.runFrom_standard machine.registry call folded function]
    exact .of_step (reaches_function hcalls function (reaches_events hcalls events) picking none _
      scene)
  | .branch ⟨false, folded⟩ (.group info) events, left, picking, owner, frames, scene =>
    .of_step (reaches_events hcalls events picking none _ scene)
  | .branch ⟨false, folded⟩ (.function _ _) events, left, picking, owner, frames, scene =>
    .of_step (.refl machine _)

/-- Events are run to their end. -/
theorem reaches_events (hcalls : machine.FollowsCalls call depth) :
    ∀ (events : List Event) (picking : Picking) (owner : Option Function) (frames : List Frame)
      (scene : Scene),
      machine.Reaches (.running (⟨.events events, picking, depth, owner⟩ :: frames) scene)
        (.after frames (EventTree.runFrom machine.registry call events picking scene))
  | [], picking, owner, frames, scene => .of_step (.refl machine _)
  | event :: left, picking, owner, frames, scene => by
    refine (reaches_event hcalls event left picking owner frames scene).trans ?_
    simp only [EventTree.runFrom]
    rcases event.runFrom machine.registry call picking scene with ⟨error | _, scene⟩
    · exact .refl machine _
    · exact reaches_events hcalls left picking owner frames scene

end

/-! ## Calls -/

/-- Calls are run to their end, as deep as they may nest from here.  The induction is on the
calls that may still nest: the machine counts up to the limit what the run counts down. -/
theorem followsCalls_callFrom (machine : Machine) {depth left : Nat}
    (hlimit : depth + left = machine.limit) :
    machine.FollowsCalls (callFrom machine.registry machine.tree machine.limit left) depth := by
  induction left generalizing depth with
  | zero =>
    rintro name objects frame frames scene rfl
    have hlimit : machine.limit ≤ frame.depth := by omega
    simp only [Machine.call, hlimit, if_true, callFrom]
    exact .refl machine _
  | succ left ih =>
    rintro name objects frame frames scene rfl
    have hroom : ¬ machine.limit ≤ frame.depth := by omega
    simp only [Machine.call, hroom, if_false, callFrom]
    cases EventTree.findFunction? name machine.tree with
    | none => exact .refl machine _
    | some function =>
      by_cases hdisabled : function.flags.disabled = true
      · simp only [hdisabled, if_true]
        exact .refl machine _
      · have hdepth : frame.depth + 1 + left = machine.limit := by omega
        have hcalls := ih hdepth
        simp only [hdisabled]
        refine (reaches_function hcalls function (reaches_events hcalls function.events) _
          (some function) _ scene).trans ?_
        rcases function.runFrom machine.registry _ _ with ⟨error | _, scene⟩
        · exact .refl machine _
        · exact .refl machine _

/-- A run from the start ends as the run of the tree does. -/
theorem reaches_startRun (machine : Machine) (context : Context) :
    let call := callFrom machine.registry machine.tree machine.limit machine.limit
    let outcome :=
      EventTree.runFrom machine.registry call machine.tree context.picking context.scene
    machine.Reaches (machine.startRun context) (.halted outcome.1 outcome.2) := by
  intro call outcome
  have hcalls := machine.followsCalls_callFrom (Nat.zero_add machine.limit)
  refine (reaches_events hcalls machine.tree context.picking none [] context.scene).trans ?_
  change machine.Reaches (.after [] outcome) _
  rcases outcome with ⟨error | _, scene⟩
  · exact .refl machine _
  · exact .of_step (.refl machine _)

/-- A call from outside ends as the call of the function does. -/
theorem reaches_startCall (machine : Machine) (name : String) (objects : Option String)
    (context : Context) :
    let outcome :=
      callFrom machine.registry machine.tree machine.limit machine.limit name objects context
    machine.Reaches (machine.startCall name objects context)
      (.halted outcome.1 outcome.2.scene) := by
  intro outcome
  have hcalls := machine.followsCalls_callFrom (Nat.zero_add machine.limit)
  refine (hcalls name objects ⟨.events [], context.picking, 0, none⟩ [] context.scene rfl).trans ?_
  change machine.Reaches (.afterActions _ [] outcome) _
  rcases outcome with ⟨error | _, final⟩
  · exact .refl machine _
  · exact .of_step (.of_step (.refl machine _))

end Machine

end SceneLogic

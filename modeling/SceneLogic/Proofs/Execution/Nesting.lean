import SceneLogic.Execution.Builtin
import SceneLogic.Proofs.Execution.Machine

/-!
# Calls nest within the limit

The machine counts, for each part of a run, in how many calls it is nested, and passes the
count on as it enters events and calls functions.  The count is right: it is the number of
functions that are active around the part.  As no function is called where the count has
reached the limit, no more functions are ever active than that, and every run ends.

## Main definitions

* `Machine.Nested` — each part counts the functions around it, and there are not too many.

## Main statements

* `Machine.Nested.of_step` — every kind of step keeps the count right and within the limit.
* `Machine.halts_within_limit` — every run ends, and never nests beyond the limit.
-/

namespace SceneLogic

namespace Machine

variable {machine : Machine} {start : State} {frame : Frame} {frames : List Frame}
  {scene : Scene}

/-- Each part counts the functions that are active around it, itself included, and there are
no more of them than the limit says. -/
inductive Nested (limit : Nat) : List Frame → Prop where
  | nil : Nested limit []
  | cons {frame : Frame} {frames : List Frame}
    (counted : frame.depth = ((frame :: frames).filterMap (·.function)).length)
    (within : frame.depth ≤ limit) (rest : Nested limit frames) : Nested limit (frame :: frames)

namespace Nested

theorem forall_depth_le {limit : Nat} {frames : List Frame} (h : Nested limit frames) :
    ∀ frame ∈ frames, frame.depth ≤ limit := by
  induction h with
  | nil => simp
  | cons _ within _ ih => exact List.forall_mem_cons.2 ⟨within, ih⟩

theorem length_active_le {limit : Nat} {frames : List Frame} (h : Nested limit frames) :
    (frames.filterMap (·.function)).length ≤ limit := by
  cases h with
  | nil => simp
  | cons counted within _ => exact counted ▸ within

/-- What is left to do and what is picked do not matter for the count. -/
theorem replace {limit : Nat} (h : Nested limit (frame :: frames)) (work : Work)
    (picking : Picking) : Nested limit ({ frame with work, picking } :: frames) := by
  cases h with
  | cons counted within rest => exact .cons counted within rest

/-- An event is entered at the same depth. -/
theorem push {limit : Nat} (h : Nested limit (frame :: frames)) (work : Work)
    (picking : Picking) : Nested limit (⟨work, picking, frame.depth, none⟩ :: frame :: frames) := by
  cases h with
  | cons counted within rest =>
    exact .cons (by simpa using counted) within (.cons counted within rest)

/-- A function is called one level deeper. -/
theorem pushFunction {limit : Nat} (h : Nested limit (frame :: frames)) (work : Work)
    (picking : Picking) (function : Function) (hroom : frame.depth < limit) :
    Nested limit (⟨work, picking, frame.depth + 1, some function⟩ :: frame :: frames) := by
  cases h with
  | cons counted within rest =>
    exact .cons (by simpa using counted) hroom (.cons counted within rest)

/-- Every kind of step keeps the count right and below the limit. -/
theorem of_step {next : State} (h : Nested machine.limit (frame :: frames))
    (hstep : machine.Step frame frames scene next) : Nested machine.limit next.frames := by
  cases hstep with
  | fail _ error => exact .nil
  | leave _ =>
    cases h with
    | cons _ _ rest => exact rest
  | goOn _ work => exact h.replace work _
  | enter work inner => exact (h.replace work frame.picking).push inner _
  | call _ room function objects work => exact (h.replace work _).pushFunction _ _ function room

theorem step {state : State} (h : Nested machine.limit state.frames) :
    Nested machine.limit (machine.step state).frames := by
  match state, h with
  | .halted _ _, _ => exact .nil
  | .running [] _, _ => exact .nil
  | .running (frame :: frames) scene, h =>
    exact h.of_step (machine.step_running frame frames scene)

theorem iterate_step (h : Nested machine.limit start.frames) (moment : Nat) :
    Nested machine.limit (machine.step^[moment] start).frames := by
  induction moment with
  | zero => exact h
  | succ moment ih =>
    rw [Function.iterate_succ_apply']
    exact ih.step

theorem startRun (machine : Machine) (context : Context) :
    Nested machine.limit (machine.startRun context).frames :=
  .cons rfl (Nat.zero_le _) .nil

theorem startCall (machine : Machine) (name : String) (objects : Option String)
    (context : Context) : Nested machine.limit (machine.startCall name objects context).frames := by
  have hcaller : Nested machine.limit [⟨.events [], context.picking, 0, none⟩] :=
    .cons rfl (Nat.zero_le _) .nil
  exact hcaller.of_step (step_call (.inl rfl) name objects (.events []))

end Nested

/-! ## Every run ends -/

/-- **Every run ends, and calls never nest beyond the limit.**  Whatever the instructions
answer, whatever functions they ask for and however these call each other: in every scene,
with whatever is picked, the machine that carries out a run of a tree, or a call of one of
its functions, comes to rest after some steps, with the result and the scene of the run, or
of the call.  At every moment on the way there are at most as many functions active as the
limit allows, and no part of the run is nested in more calls. -/
theorem halts_within_limit (registry : Registry) (tree : EventTree) (limit : Nat)
    (context : Context) :
    let machine : Machine := ⟨registry, tree, limit⟩
    let call := callFrom registry tree limit limit
    (∃ last, ∀ moment, last ≤ moment → machine.step^[moment] (machine.startRun context) =
      .halted (EventTree.runFrom registry call tree context.picking context.scene).1
        (EventTree.runFrom registry call tree context.picking context.scene).2) ∧
    (∀ name objects, ∃ last, ∀ moment, last ≤ moment →
      machine.step^[moment] (machine.startCall name objects context) =
        .halted (call name objects context).1 (call name objects context).2.scene) ∧
    ∀ start, (start = machine.startRun context ∨
        ∃ name objects, start = machine.startCall name objects context) →
      ∀ moment, (machine.step^[moment] start).active.length ≤ limit ∧
        ∀ frame ∈ (machine.step^[moment] start).frames, frame.depth ≤ limit := by
  intro machine call
  refine ⟨(machine.reaches_startRun context).exists_forall_le, fun name objects => ?_, ?_⟩
  · exact (machine.reaches_startCall name objects context).exists_forall_le
  · intro start hstart moment
    have hnested : Nested machine.limit start.frames := by
      rcases hstart with rfl | ⟨name, objects, rfl⟩
      · exact .startRun machine context
      · exact .startCall machine name objects context
    have hmoment := hnested.iterate_step moment
    exact ⟨hmoment.length_active_le, hmoment.forall_depth_le⟩

/-- Two functions that call each other, one of them twice and from a sub-event. -/
def echoTree : EventTree :=
  [.branch ⟨false, false⟩ (.function ⟨"Ping", ""⟩ ⟨[], []⟩)
      [.branch ⟨false, false⟩ (.standard ⟨[], [⟨callOperation, ["Pong"], false⟩,
        ⟨callOperation, ["Pong"], false⟩]⟩) []],
    .branch ⟨false, false⟩ (.function ⟨"Pong", ""⟩ ⟨[], [⟨callOperation, ["Ping"], false⟩]⟩) [],
    .branch ⟨false, false⟩ (.standard ⟨[], [⟨callOperation, ["Ping"], false⟩]⟩) []]

/-- The functions of the tree call each other without end, and the run ends where four of them
are active. -/
theorem halts_within_limit_of_echoTree :
    let machine : Machine := ⟨.builtin, echoTree, 4⟩
    let start := machine.startRun ⟨Scene.named "scene", ∅⟩
    (∃ last, ∀ moment, last ≤ moment → ∃ scene,
      machine.step^[moment] start = .halted (.error (.callDepthExceeded 4)) scene) ∧
    (machine.step^[18] start).active.length = 4 ∧
      ∀ moment, (machine.step^[moment] start).active.length ≤ 4 := by
  intro machine start
  obtain ⟨⟨last, hlast⟩, -, hactive⟩ := halts_within_limit .builtin echoTree 4
    ⟨Scene.named "scene", ∅⟩
  let outcome := EventTree.run .builtin 4 echoTree (Scene.named "scene")
  have hresult : outcome.1 = .error (.callDepthExceeded 4) := by decide +kernel
  refine ⟨⟨last, fun moment hle => ⟨outcome.2, ?_⟩⟩, by decide +kernel, fun moment => ?_⟩
  · rw [← hresult]
    exact hlast moment hle
  · exact (hactive start (.inl rfl) moment).1

end Machine

end SceneLogic

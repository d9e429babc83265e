import SceneLogic.Proofs.Execution.LiveHandles
import SceneLogic.Proofs.Execution.Machine
import SceneLogic.Proofs.Execution.Narrowing
import SceneLogic.Proofs.Execution.Pruning
import SceneLogic.Proofs.Objects.Distinct

/-!
# No instance is picked twice

In a run of the built-in instructions every list of every part of the run is without
repetition, also where a sub-event goes on with a list that its parent filled and whose
instances have ended since.  The parts share the store, so that an instruction in one of them
may give out new handles while the others wait: what they wait with was given out before, and
that is kept by everything that is done to the store.

## Main definitions

* `Context.StaysDistinct` — what an instruction may do to a context.
* `Machine.State.Distinct` — the lists of all parts of a run are without repetition.
* `Builtin.Visits` — what an action on instances does with each of them.
* `Context.PicksOnce` — each live instance is picked, counted and visited once.

## Main statements

* `Builtin.staysDistinct` — every built-in operation keeps lists without repetition.
* `Machine.State.Distinct.of_step`, `Machine.State.Distinct.iterate_step` — so do all kinds of
  steps, and runs.
* `Machine.picks_once` — in every run each live instance is picked, counted and visited once.
-/

namespace SceneLogic

/-! ## Contexts -/

namespace Context

/-- The store is in order, and the lists are without repetition. -/
structure Distinct (context : Context) : Prop where
  wellFormed : context.scene.objects.WellFormed
  picking : context.picking.Distinct context.scene.objects

/-- What an instruction may do to a context: unless handles ran out, the store goes on from
what it was, and the lists stay without repetition. -/
def StaysDistinct (before after : Context) : Prop :=
  before.Distinct → before.scene.objects.KeepsApart after.scene.objects →
    before.scene.objects.Continues after.scene.objects ∧
      after.picking.Distinct after.scene.objects

variable {context middle : Context}

theorem Narrows.staysDistinct (h : context.Narrows middle) : context.StaysDistinct middle := by
  intro hcontext _
  rw [h.scene]
  exact ⟨hcontext.wellFormed.continues, hcontext.picking.of_narrows hcontext.wellFormed h.picking⟩

/-- After the lists were narrowed the scene may change. -/
theorem Narrows.staysDistinct_updateScene (h : context.Narrows middle) {change : Scene → Scene}
    (hchange : ∀ scene : Scene, scene.objects.WellFormed →
      scene.objects.Continues (change scene).objects) :
    context.StaysDistinct (middle.updateScene change) := by
  intro hcontext _
  have hcontinues : context.scene.objects.Continues (change middle.scene).objects := by
    rw [h.scene]
    exact hchange context.scene hcontext.wellFormed
  have hpicking := hcontext.picking.of_narrows hcontext.wellFormed h.picking
  exact ⟨hcontinues, hpicking.of_continues hcontinues⟩

/-- What goes on for one handle goes on for one after another. -/
theorem continues_foldl {change : Scene → Handle → Scene}
    (hchange : ∀ (scene : Scene) handle, scene.objects.WellFormed →
      scene.objects.Continues (change scene handle).objects)
    (handles : List Handle) (scene : Scene) (hscene : scene.objects.WellFormed) :
    scene.objects.Continues (handles.foldl change scene).objects := by
  refine List.foldlRecOn (motive := fun changed : Scene => scene.objects.Continues changed.objects)
    handles change hscene.continues ?_
  intro middle hmiddle handle _
  exact hmiddle.trans (hchange middle handle hmiddle.wellFormed)

end Context

/-! ## Instructions -/

/-- Carrying out the operation keeps lists without repetition, whatever the instruction. -/
def Operation.StaysDistinct (operation : Operation) : Prop :=
  ∀ (instruction : Instruction) (context : Context),
    context.StaysDistinct (operation.execute instruction context).2

namespace Builtin

variable {context : Context}

/-- An instruction that lacks a name has no effect. -/
theorem staysDistinct_withName {instruction : Instruction} {index : Nat} {what : String}
    {next : String → Output × Context}
    (hnext : ∀ name, context.StaysDistinct (next name).2) :
    context.StaysDistinct (withName instruction index what context next).2 :=
  withName_cases (motive := context.StaysDistinct) (Context.Narrows.refl context).staysDistinct
    hnext

theorem staysDistinct_forEachWith {id name category description : String}
    {parameters : List Parameter} {change : Scene → Option Handle → Option Handle → Scene}
    (hchange : ∀ scene a b, (change scene a b).objects = scene.objects) :
    (operation .action id name category description parameters
      (forEachWith change)).StaysDistinct := by
  intro instruction context
  refine staysDistinct_withName fun object => staysDistinct_withName fun other => ?_
  have hnarrows := (Context.Narrows.firstPicked? context other).trans
    (.picked (context.firstPicked? other).2 object)
  refine hnarrows.staysDistinct_updateScene (Context.continues_foldl ?_ _)
  intro scene handle hscene
  rw [hchange]
  exact hscene.continues

/-- Every built-in operation keeps lists without repetition. -/
theorem staysDistinct : ∀ entry ∈ operations, entry.StaysDistinct := by
  intro entry hentry
  cases hkind : entry.definition.kind with
  | condition => exact fun instruction context => (narrows entry hentry hkind _ _).staysDistinct
  | action =>
    have condition {distinct : Prop} (h : InstructionKind.condition = .action) : distinct :=
      absurd h (by decide)
    revert entry
    simp only [operations, List.forall_mem_cons]
    refine ⟨condition, condition, condition, fun _ => ?setVariable, condition, condition,
      fun _ => ?createObject, fun _ => ?deleteObjects, fun _ => ?setObjectVariable, condition,
      fun _ => ?linkObjects, fun _ => ?unlinkObjects, fun _ => ?unlinkAllOfObject,
      fun _ => ?callFunction, List.forall_mem_nil _⟩
    case linkObjects =>
      refine staysDistinct_forEachWith fun scene a b => ?_
      unfold Scene.joinObjects
      split <;> rfl
    case unlinkObjects =>
      refine staysDistinct_forEachWith fun scene a b => ?_
      unfold Scene.partObjects
      split <;> rfl
    all_goals
      intro instruction context
      refine staysDistinct_withName fun object => ?_
    case callFunction => exact (Context.Narrows.refl context).staysDistinct
    case setVariable =>
      exact (Context.Narrows.refl context).staysDistinct_updateScene fun _ => (·.continues)
    case createObject =>
      intro hcontext hkept
      exact ⟨hcontext.wellFormed.continues_insert hkept,
        hcontext.picking.addCreated hcontext.wellFormed object hkept⟩
    case deleteObjects =>
      intro hcontext hkept
      let handles := (context.picked object).1
      let deleted := context.scene.deleteAll handles
      have hobjects : deleted.objects = context.scene.objects.destroyAll handles :=
        Scene.objects_deleteAll context.scene handles
      have hcontinues : context.scene.objects.Continues deleted.objects := by
        rw [hobjects]
        exact hcontext.wellFormed.continues_destroyAll (hobjects ▸ hkept)
      have hpicked := hcontext.picking.of_narrows hcontext.wellFormed
        (Context.Narrows.picked context object).picking
      exact ⟨hcontinues, (hpicked.of_continues hcontinues).keepIf deleted.objects.isAlive⟩
    case unlinkAllOfObject =>
      have hisolate : ∀ (scene : Scene) handle, scene.objects.WellFormed →
          scene.objects.Continues (scene.isolateObject (some handle)).objects :=
        fun _ _ hscene => hscene.continues
      exact (Context.Narrows.picked context object).staysDistinct_updateScene
        (Context.continues_foldl hisolate _)
    case setObjectVariable =>
      refine staysDistinct_withName fun key => ?_
      exact (Context.Narrows.picked context object).staysDistinct_updateScene
        (Context.continues_foldl (fun _ handle hscene => hscene.continues_modify handle _) _)

end Builtin

theorem Registry.execute_builtin_staysDistinct (instruction : Instruction)
    (kind : InstructionKind) (context : Context) :
    context.StaysDistinct (builtin.execute instruction kind context).2 := by
  rcases execute_builtin_snd instruction kind context with heq | ⟨operation, hmem, -, heq⟩
  · rw [heq]
    exact (Context.Narrows.refl context).staysDistinct
  · rw [heq]
    exact Builtin.staysDistinct operation hmem instruction context

/-! ## Calls -/

/-- The lists of a function are without repetition, and so are those of its caller after the
passed list was filled. -/
theorem Context.Distinct.bindArgument {context : Context} (hcontext : context.Distinct)
    (function : Function) (objects : Option String) :
    (bindArgument function objects context).1.Distinct context.scene.objects ∧
      (bindArgument function objects context).2.Distinct context.scene.objects := by
  cases hpassed : function.passed? objects with
  | none =>
    rw [bindArgument_of_none function objects context hpassed]
    exact ⟨Picking.distinct_empty _, hcontext.picking⟩
  | some object =>
    have hnodup := hcontext.picking.nodup_filled hcontext.wellFormed object
    have hissued := hcontext.picking.hasIssued_filled hcontext.wellFormed object
    rw [bindArgument_of_some function objects context hpassed, Picking.ensure_eq]
    constructor
    · refine (Picking.distinct_empty _).insert _ (hnodup.filter _) fun handle hmem => ?_
      exact hissued handle (List.mem_filter.1 hmem).1
    · exact hcontext.picking.insert object hnodup hissued

/-! ## Runs -/

namespace Machine

variable {machine : Machine} {frame : Frame} {frames : List Frame} {scene : Scene}
  {context : Context} {start state next : State}

/-- The store is in order, and the lists of all parts of the run are without repetition. -/
structure State.Distinct (state : State) : Prop where
  wellFormed : state.scene.objects.WellFormed
  picking : ∀ frame ∈ state.frames, frame.picking.Distinct state.scene.objects

namespace State.Distinct

/-- What an instruction of the innermost part does. -/
theorem of_carried (h : (State.running (frame :: frames) scene).Distinct)
    (hregistry : machine.registry = .builtin) (hcarried : machine.Carried frame scene context)
    (hkept : scene.objects.KeepsApart context.scene.objects) :
    scene.objects.Continues context.scene.objects ∧ context.Distinct := by
  have hbefore : Context.Distinct ⟨scene, frame.picking⟩ :=
    ⟨h.wellFormed, h.picking frame List.mem_cons_self⟩
  rcases hcarried with rfl | ⟨instruction, kind, rfl⟩
  · exact ⟨h.wellFormed.continues, hbefore⟩
  · rw [hregistry] at hkept ⊢
    obtain ⟨hcontinues, hpicking⟩ :=
      Registry.execute_builtin_staysDistinct instruction kind _ hbefore hkept
    exact ⟨hcontinues, hcontinues.wellFormed, hpicking⟩

/-- The parts that wait go on with what they had. -/
theorem waiting (h : (State.running (frame :: frames) scene).Distinct) {after : Store}
    (hcontinues : scene.objects.Continues after) :
    ∀ waiting ∈ frames, waiting.picking.Distinct after := fun waiting hmem =>
  (h.picking waiting (List.mem_cons_of_mem _ hmem)).of_continues hcontinues

/-- Every kind of step keeps the lists of all parts without repetition. -/
theorem of_step (h : (State.running (frame :: frames) scene).Distinct)
    (hregistry : machine.registry = .builtin) (hstep : machine.Step frame frames scene next)
    (hkept : scene.objects.KeepsApart next.scene.objects) : next.Distinct := by
  cases hstep with
  | fail hcarried error =>
    obtain ⟨-, hcontext⟩ := h.of_carried hregistry hcarried hkept
    exact ⟨hcontext.wellFormed, nofun⟩
  | leave hcarried =>
    obtain ⟨hcontinues, hcontext⟩ := h.of_carried hregistry hcarried hkept
    exact ⟨hcontext.wellFormed, h.waiting hcontinues⟩
  | goOn hcarried work =>
    obtain ⟨hcontinues, hcontext⟩ := h.of_carried hregistry hcarried hkept
    exact ⟨hcontext.wellFormed,
      List.forall_mem_cons.2 ⟨hcontext.picking, h.waiting hcontinues⟩⟩
  | enter work inner =>
    have hframe := h.picking frame List.mem_cons_self
    exact ⟨h.wellFormed, List.forall_mem_cons.2 ⟨hframe, List.forall_mem_cons.2
      ⟨hframe, h.waiting h.wellFormed.continues⟩⟩⟩
  | call hcarried _ function objects work =>
    obtain ⟨hcontinues, hcontext⟩ := h.of_carried hregistry hcarried hkept
    obtain ⟨hlists, hcaller⟩ := hcontext.bindArgument function objects
    exact ⟨hcontext.wellFormed, List.forall_mem_cons.2 ⟨hlists, List.forall_mem_cons.2
      ⟨hcaller, h.waiting hcontinues⟩⟩⟩

theorem step (h : state.Distinct) (hregistry : machine.registry = .builtin)
    (hkept : state.scene.objects.KeepsApart (machine.step state).scene.objects) :
    (machine.step state).Distinct := by
  match state, h with
  | .halted _ _, h => exact ⟨h.wellFormed, nofun⟩
  | .running [] _, h => exact ⟨h.wellFormed, nofun⟩
  | .running (frame :: frames) scene, h =>
    exact h.of_step hregistry (machine.step_running frame frames scene) hkept

/-- As long as handles are kept apart, the lists are without repetition. -/
theorem iterate_step (h : start.Distinct) (hregistry : machine.registry = .builtin)
    (moment : Nat)
    (hkept : ∀ earlier < moment, (machine.step^[earlier] start).scene.objects.KeepsApart
      (machine.step^[earlier + 1] start).scene.objects) :
    (machine.step^[moment] start).Distinct := by
  induction moment with
  | zero => exact h
  | succ moment ih =>
    have hbefore := ih fun earlier hlt => hkept earlier (Nat.lt_succ_of_lt hlt)
    have hlast := hkept moment (Nat.lt_succ_self moment)
    rw [Function.iterate_succ_apply'] at hlast ⊢
    exact hbefore.step hregistry hlast

theorem startRun (machine : Machine) (hscene : scene.objects.WellFormed) :
    (machine.startRun ⟨scene, ∅⟩).Distinct :=
  ⟨hscene, List.forall_mem_singleton.2 (Picking.distinct_empty _)⟩

theorem startCall (hregistry : machine.registry = .builtin) (hscene : scene.objects.WellFormed)
    (name : String) : (machine.startCall name none ⟨scene, ∅⟩).Distinct := by
  have hcaller : (State.running [⟨.events [], ∅, 0, none⟩] scene).Distinct :=
    ⟨hscene, List.forall_mem_singleton.2 (Picking.distinct_empty _)⟩
  have hcall : machine.Step ⟨.events [], ∅, 0, none⟩ [] scene
      (machine.startCall name none ⟨scene, ∅⟩) := step_call (.inl rfl) name none (.events [])
  refine hcaller.of_step hregistry hcall ?_
  rw [Machine.startCall, scene_call]
  exact hscene.keepsApart

end State.Distinct

end Machine

/-! ## What is counted and visited -/

/-- What an action on the instances of an object does with each of them, in a context. -/
inductive Builtin.Visits (instruction : Instruction) (context : Context) :
    Executor → String → (Scene → Handle → Scene) → Prop where
  | delete {object : String} (named : instruction.name? 0 = some object) :
    Visits instruction context deleteObjects object fun scene handle =>
      (scene.deleteObject handle).2
  | setVariable {object key : String} (named : instruction.name? 0 = some object)
    (keyed : instruction.name? 1 = some key) :
    Visits instruction context setObjectVariable object fun scene handle =>
      { scene with
        objects := scene.objects.modify handle (·.setVariable key (valueAt instruction 2)) }
  | link {object other : String} (named : instruction.name? 0 = some object)
    (linked : instruction.name? 1 = some other) :
    Visits instruction context linkObjects object fun scene handle =>
      scene.joinObjects (some handle) (context.firstPicked? other).1
  | unlink {object other : String} (named : instruction.name? 0 = some object)
    (linked : instruction.name? 1 = some other) :
    Visits instruction context unlinkObjects object fun scene handle =>
      scene.partObjects (some handle) (context.firstPicked? other).1
  | unlinkAll {object : String} (named : instruction.name? 0 = some object) :
    Visits instruction context unlinkAllOfObject object fun scene handle =>
      scene.isolateObject (some handle)

namespace Context

variable {context : Context}

/-- Taking the first of an object leaves the same live handles of every other. -/
theorem liveHandles_firstPicked? (context : Context) (other object : String) :
    (context.firstPicked? other).2.liveHandles object = context.liveHandles object := by
  rw [firstPicked?_eq, liveHandles_refresh]

/-- An action on instances visits the live ones that are picked. -/
theorem scene_of_visits {instruction : Instruction} {executor : Executor} {object : String}
    {change : Scene → Handle → Scene}
    (hvisits : Builtin.Visits instruction context executor object change) :
    (executor instruction context).2.scene =
      (context.liveHandles object).foldl change context.scene := by
  cases hvisits with
  | delete named =>
    simp only [Builtin.deleteObjects, Builtin.withName, named, picked_fst]
    rfl
  | setVariable named keyed =>
    simp only [Builtin.setObjectVariable, Builtin.withName, named, keyed, picked_fst]
    rfl
  | link named linked =>
    simp only [Builtin.linkObjects, Builtin.forEachWith, Builtin.withName, named, linked,
      picked_fst, liveHandles_firstPicked?]
    rfl
  | unlink named linked =>
    simp only [Builtin.unlinkObjects, Builtin.forEachWith, Builtin.withName, named, linked,
      picked_fst, liveHandles_firstPicked?]
    rfl
  | unlinkAll named =>
    simp only [Builtin.unlinkAllOfObject, Builtin.withName, named, picked_fst]
    rfl

/-- No list of the context has a handle twice.  The live instances that are picked of an
object, on its list or else all of the object, are therefore listed once each; this is the
list that is counted, and the actions on instances visit it from the first to the last. -/
structure PicksOnce (context : Context) : Prop where
  nodup : ∀ name handles, context.picking.get? name = some handles → handles.Nodup
  nodup_liveHandles : ∀ object, (context.liveHandles object).Nodup
  mem_liveHandles : ∀ object handle, handle ∈ context.liveHandles object ↔
    handle ∈ context.picking.filled object context.scene.objects ∧
      context.scene.objects.isAlive handle = true
  counted : ∀ (instruction : Instruction) object sign,
    instruction.name? 0 = some object → instruction.name? 1 = some sign →
      (Builtin.countObjects instruction context).1 =
        Builtin.comparison (.ofNat (context.liveHandles object).length) sign
          (Builtin.valueAt instruction 2)
  visited : ∀ (instruction : Instruction) executor object change,
    Builtin.Visits instruction context executor object change →
      (executor instruction context).2.scene =
        (context.liveHandles object).foldl change context.scene

theorem Distinct.picksOnce (hcontext : context.Distinct) : context.PicksOnce where
  nodup := hcontext.picking.nodup
  nodup_liveHandles object :=
    (hcontext.picking.nodup_filled hcontext.wellFormed object).filter _
  mem_liveHandles _ _ := mem_liveHandles_iff
  counted instruction object sign named signed := by
    simp only [Builtin.countObjects, Builtin.withName, named, signed, picked_fst]
  visited _ _ _ _ := scene_of_visits

end Context

/-- **No instance is picked twice.**  Take a scene whose store came about by its own updates,
and run a tree on it, or call one of its functions.  At each moment until handles run out, that
is, until the slots cannot be numbered or one of them comes back to an earlier generation, what
is picked in any part of the run that has begun is without repetition: each live instance is
picked, counted and visited once.  The moments are those of the machine that ends where the run
ends. -/
theorem Machine.picks_once {scene : Scene} {updates : List StoreUpdate}
    (hobjects : scene.objects = Store.after updates) (hpeak : Store.peak updates ≤ UInt32.size)
    (tree : EventTree) (limit : Nat) :
    let machine : Machine := ⟨.builtin, tree, limit⟩
    let outcome := EventTree.run .builtin limit tree scene
    (∃ last, ∀ moment, last ≤ moment →
      machine.step^[moment] (machine.startRun ⟨scene, ∅⟩) = .halted outcome.1 outcome.2) ∧
    ∀ start, (start = machine.startRun ⟨scene, ∅⟩ ∨
        ∃ name, start = machine.startCall name none ⟨scene, ∅⟩) →
      ∀ moment, (∀ earlier < moment, (machine.step^[earlier] start).scene.objects.KeepsApart
          (machine.step^[earlier + 1] start).scene.objects) →
        ∀ frame ∈ (machine.step^[moment] start).frames,
          Context.PicksOnce ⟨(machine.step^[moment] start).scene, frame.picking⟩ := by
  intro machine outcome
  have hscene : scene.objects.WellFormed := by
    rw [hobjects]
    exact Store.wellFormed_after hpeak
  refine ⟨(machine.reaches_startRun ⟨scene, ∅⟩).exists_forall_le, ?_⟩
  intro start hstart moment hkept frame hframe
  have hdistinct : start.Distinct := by
    rcases hstart with rfl | ⟨name, rfl⟩
    · exact .startRun machine hscene
    · exact .startCall rfl hscene name
  have hmoment := hdistinct.iterate_step rfl moment hkept
  exact Context.Distinct.picksOnce ⟨hmoment.wellFormed, hmoment.picking frame hframe⟩

/-- Two coins. -/
def twoCoins : Scene :=
  { Scene.named "scene" with objects := Store.after [.create "Coin", .create "Coin"] }

/-- An event that picks the coins.  Of its sub-events one deletes them and the other creates a
new one, which it passes to a function. -/
def refreshTree : EventTree :=
  [.branch ⟨false, false⟩ (.standard ⟨[⟨"objects/Count", ["Coin", "==", "2"], false⟩], []⟩)
      [.branch ⟨false, false⟩ (.standard ⟨[], [⟨"objects/Delete", ["Coin"], false⟩]⟩) [],
        .branch ⟨false, false⟩ (.standard ⟨[], [⟨"objects/Create", ["Coin"], false⟩]⟩)
          [.branch ⟨false, false⟩ (.standard ⟨[⟨"objects/Count", ["Coin", "==", "1"], false⟩],
            [⟨callOperation, ["Keep", "Coin"], false⟩]⟩) []]],
    .branch ⟨false, false⟩ (.function ⟨"Keep", "Item"⟩
      ⟨[], [⟨"objects/SetVar", ["Item", "kept", "true"], false⟩]⟩) []]

/-- The new coin is in the slot of one that was deleted.  At that moment the second sub-event
has the handles of both, and yet none twice; one of them is alive. -/
theorem Machine.picks_once_of_refreshTree :
    let machine : Machine := ⟨.builtin, refreshTree, 64⟩
    let state := machine.step^[12] (machine.startRun ⟨twoCoins, ∅⟩)
    ∃ frame ∈ state.frames,
      frame.picking.get? "Coin" = some [⟨0, 0⟩, ⟨1, 0⟩, ⟨1, 1⟩] ∧
        ([⟨0, 0⟩, ⟨1, 0⟩, ⟨1, 1⟩] : List Handle).Nodup ∧
        (Context.liveHandles ⟨state.scene, frame.picking⟩ "Coin").Nodup ∧
        ⟨1, 1⟩ ∈ Context.liveHandles ⟨state.scene, frame.picking⟩ "Coin" := by
  intro machine state
  have hkept : ∀ earlier < 12,
      (machine.step^[earlier] (machine.startRun ⟨twoCoins, ∅⟩)).scene.objects.KeepsApart
        (machine.step^[earlier + 1] (machine.startRun ⟨twoCoins, ∅⟩)).scene.objects := by
    decide +kernel
  obtain ⟨frame, hframe, hlist⟩ : ∃ frame ∈ state.frames,
      frame.picking.get? "Coin" = some [⟨0, 0⟩, ⟨1, 0⟩, ⟨1, 1⟩] := by decide +kernel
  have halive : state.scene.objects.isAlive ⟨1, 1⟩ = true := by decide +kernel
  have hobjects : twoCoins.objects = Store.after [.create "Coin", .create "Coin"] := rfl
  obtain ⟨-, honce⟩ := picks_once hobjects (by decide) refreshTree 64
  have hframes := honce _ (.inl rfl) 12 hkept frame hframe
  refine ⟨frame, hframe, hlist, hframes.nodup "Coin" _ hlist, hframes.nodup_liveHandles "Coin", ?_⟩
  rw [hframes.mem_liveHandles, Picking.filled_of_get? hlist]
  exact ⟨by decide, halive⟩

end SceneLogic

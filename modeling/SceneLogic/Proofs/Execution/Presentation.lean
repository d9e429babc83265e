import SceneLogic.Execution.Builtin
import SceneLogic.Proofs.Event.Plain
import SceneLogic.Proofs.Execution.Equations

/-!
# Presentation does not influence execution

A tree and its plain form run alike.  Taking a group away changes how deep its events
nest and which events are their siblings, so the statement for events is about any
picking that they may start from; and it changes the tree in which functions are looked
up, so the statement for calls is proved along the depth to which they may nest.

## Main statements

* `EventTree.runFrom_plain` — events and their plain form run alike.
* `callFrom_plain` — so do the functions of a tree and of its plain form.
* `run_plain` — a tree and its plain form run alike, as do calls from outside.
-/

namespace SceneLogic

variable (registry : Registry) (call : Call)

mutual

theorem Event.runFrom_plain :
    ∀ (event : Event) (picking : Picking) (scene : Scene),
      EventTree.runFrom registry call event.plain picking scene =
        event.runFrom registry call picking scene
  | .comment _ _, picking, scene => rfl
  | .branch flags header events, picking, scene => by
    have ih := EventTree.runFrom_plain events
    simp only [Event.plain]
    split
    next hgroup =>
      -- The events of a group run in its place, from the same picking.
      obtain ⟨henabled, hkind⟩ := hgroup
      rw [ih]
      cases header with
      | group info => simp [Event.runFrom, henabled]
      | standard _ | function _ _ => cases hkind
    next =>
      split
      next hdropped => simp [EventTree.runFrom, Event.runFrom, hdropped.1]
      next =>
        rw [EventTree.runFrom_singleton]
        by_cases hdisabled : flags.disabled = true
        · simp [Event.runFrom, hdisabled]
        · cases header <;> simp only [Event.runFrom, ih]

/-- Events and their plain form run alike, from any picking and in any scene. -/
theorem EventTree.runFrom_plain :
    ∀ (events : List Event) (picking : Picking) (scene : Scene),
      EventTree.runFrom registry call (EventTree.plain events) picking scene =
        EventTree.runFrom registry call events picking scene
  | [], picking, scene => rfl
  | event :: events, picking, scene => by
    rw [EventTree.plain, EventTree.runFrom_append, Event.runFrom_plain event, EventTree.runFrom]
    rcases event.runFrom registry call picking scene with ⟨_ | _, middle⟩
    · rfl
    · exact EventTree.runFrom_plain events picking middle

end

theorem Function.runFrom_plain (function : Function) (context : Context) :
    function.plain.runFrom registry call context = function.runFrom registry call context := by
  simp only [Function.runFrom, Function.plain, EventTree.runFrom_plain]

theorem bindArgument_plain (function : Function) (objects : Option String) (context : Context) :
    bindArgument function.plain objects context = bindArgument function objects context := rfl

/-- Functions are called alike in a tree and in its plain form.  The induction is on how
deep calls may nest; the calls that a body makes are equal one level below. -/
theorem callFrom_plain (tree : EventTree) (limit depth : Nat) :
    callFrom registry (EventTree.plain tree) limit depth = callFrom registry tree limit depth := by
  induction depth with
  | zero => rfl
  | succ depth ih =>
    funext name objects context
    simp only [callFrom, EventTree.findFunction?_plain, ih]
    cases hfound : EventTree.findFunction? name tree with
    | none => rfl
    | some function =>
      simp only [Option.map_some, bindArgument_plain, Function.runFrom_plain]
      rfl

/-- **Presentation does not influence execution**: the plain form of a tree holds nothing
that only serves presentation, and it runs like the tree, whatever the instructions do,
in every scene and at every limit of calls; so do the calls of its functions. -/
theorem run_plain (tree : EventTree) (limit : Nat) (scene : Scene) :
    (∀ event ∈ EventTree.visited (EventTree.plain tree), event.IsPlain) ∧
      EventTree.run registry limit (EventTree.plain tree) scene =
        EventTree.run registry limit tree scene ∧
      ∀ name, EventTree.callFunction registry limit (EventTree.plain tree) name scene =
        EventTree.callFunction registry limit tree name scene := by
  refine ⟨fun event => EventTree.isPlain_of_mem_plain tree, ?_, fun name => ?_⟩
  · simp only [EventTree.run, callFrom_plain, EventTree.runFrom_plain]
  · simp only [EventTree.callFunction, callFrom_plain]

/-- A folded group with a comment and an event that sets a variable, and a disabled
event above a function. -/
def presentedTree : EventTree :=
  [.branch ⟨false, true⟩ (.group ⟨"Group", "", 0, [], .group⟩)
      [.comment ⟨false, false⟩ ⟨"note", .comment, .commentText⟩,
        .branch ⟨false, true⟩ (.standard ⟨[], [⟨"variables/Set", ["x", "1"], false⟩]⟩) []],
    .branch ⟨true, true⟩ (.standard ⟨[], []⟩)
      [.branch ⟨false, true⟩ (.function ⟨"Inner", ""⟩ ⟨[], []⟩) []]]

/-- In the plain form of this tree the event stands where the group was, and it runs. -/
theorem run_plain_of_presentedTree :
    let event : Event :=
      .branch ⟨false, false⟩ (.standard ⟨[], [⟨"variables/Set", ["x", "1"], false⟩]⟩) []
    event ∈ EventTree.visited (EventTree.plain presentedTree) ∧ event.IsPlain ∧
      EventTree.run .builtin 64 (EventTree.plain presentedTree) (Scene.named "scene") =
        EventTree.run .builtin 64 presentedTree (Scene.named "scene") := by
  intro event
  have hmem : event ∈ EventTree.visited (EventTree.plain presentedTree) := by decide
  have hplain := run_plain .builtin presentedTree 64 (Scene.named "scene")
  exact ⟨hmem, hplain.1 event hmem, hplain.2.1⟩

end SceneLogic

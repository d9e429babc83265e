import SceneLogic.Execution.Builtin
import SceneLogic.Proofs.Event.Replacement
import SceneLogic.Proofs.Execution.Simulation

/-!
# Disabled events

A disabled event is skipped with everything below it, so conditions and actions there do
not matter to a run.  There is one way in: a call finds its function wherever it stands, and
goes by the function's own mark alone.  An enabled function below a disabled event does run
when it is called, and nothing else there does.

## Main statements

* `run_setEventAt_disabled` — which instructions of a disabled event do not matter.
* `run_setEventAt_mutedTree_ne` — those of an enabled function below it do.
-/

namespace SceneLogic

/-- **A disabled event is skipped with its whole subtree, but for the functions that calls
find in it.**  Replace a disabled event, anywhere in a tree, by one that differs from it in
conditions and actions alone, in itself and in any events below it.  If the enabled
functions below it that a call finds keep their bodies and what runs of their sub-events,
then every run of the tree stays the same, with the same result and the same scene, and so
does every call from outside.  This holds for all instructions and at every limit of calls. -/
theorem run_setEventAt_disabled (registry : Registry) {tree : EventTree} {path : List Nat}
    {event replacement : Event} (hevent : tree.eventAt path = .ok event)
    (hdisabled : event.flags.disabled = true) (houtline : replacement.outline = event.outline)
    (hcallable : ∀ function ∈ EventTree.functions event.children,
      function.flags.disabled = false → ∀ found,
      EventTree.findFunction? function.signature.name tree = some function →
      EventTree.findFunction? function.signature.name (tree.setEventAt path replacement) =
        some found →
      function.body = found.body ∧ EventTree.RunsLike function.events found.events)
    (limit : Nat) (scene : Scene) :
    EventTree.run registry limit (tree.setEventAt path replacement) scene =
        EventTree.run registry limit tree scene ∧
      ∀ name, EventTree.callFunction registry limit (tree.setEventAt path replacement) name scene =
        EventTree.callFunction registry limit tree name scene := by
  have halike := EventTree.alike_of_replaces (EventTree.replaces_setEventAt hevent) hdisabled
    houtline hcallable
  have hsame := run_congr registry halike limit scene
  exact ⟨hsame.1.symm, fun name => (hsame.2 name).symm⟩

/-- A function that sets a variable. -/
def rewardFunction (score : String) : Function :=
  ⟨⟨false, false⟩, ⟨"Reward", ""⟩, ⟨[], [⟨"variables/Set", ["score", score], false⟩]⟩, []⟩

/-- A disabled group that holds an event that sets a variable, and the function. -/
def mutedGroup (bonus score : String) : Event :=
  .branch ⟨true, false⟩ (.group ⟨"Muted", "", 0, [], .group⟩)
    [.branch ⟨false, false⟩
        (.standard ⟨[], [⟨"variables/Set", ["bonus", bonus], false⟩]⟩) [],
      .branch ⟨false, false⟩
        (.function (rewardFunction score).signature (rewardFunction score).body) []]

/-- The disabled group, and an event that calls the function in it. -/
def mutedTree (bonus score : String) : EventTree :=
  [mutedGroup bonus score,
    .branch ⟨false, false⟩ (.standard ⟨[], [⟨"functions/Call", ["Reward"], false⟩]⟩) []]

/-- Another event in the disabled group changes nothing; the function in the group is kept,
and it runs. -/
theorem run_setEventAt_disabled_of_mutedTree :
    (mutedTree "1" "1").eventAt [0] = .ok (mutedGroup "1" "1") ∧
      (mutedGroup "1" "1").flags.disabled = true ∧
      (mutedGroup "2" "1").outline = (mutedGroup "1" "1").outline ∧
      EventTree.run .builtin 64 ((mutedTree "1" "1").setEventAt [0] (mutedGroup "2" "1"))
          (Scene.named "scene") =
        EventTree.run .builtin 64 (mutedTree "1" "1") (Scene.named "scene") ∧
      (EventTree.run .builtin 64 (mutedTree "1" "1") (Scene.named "scene")).2.valueOf? "score" =
        some (Expression.resolve "1") := by
  have hevent : (mutedTree "1" "1").eventAt [0] = .ok (mutedGroup "1" "1") := rfl
  have houtline : (mutedGroup "2" "1").outline = (mutedGroup "1" "1").outline := rfl
  have hcallable : ∀ function ∈ EventTree.functions (mutedGroup "1" "1").children,
      function.flags.disabled = false → ∀ found,
      EventTree.findFunction? function.signature.name (mutedTree "1" "1") = some function →
      EventTree.findFunction? function.signature.name
        ((mutedTree "1" "1").setEventAt [0] (mutedGroup "2" "1")) = some found →
      function.body = found.body ∧ EventTree.RunsLike function.events found.events := by
    intro function hmem _ found _ hfound
    obtain rfl : function = rewardFunction "1" := List.mem_singleton.1 hmem
    have hreward : EventTree.findFunction? (rewardFunction "1").signature.name
        ((mutedTree "1" "1").setEventAt [0] (mutedGroup "2" "1")) = some (rewardFunction "1") := by
      simp [mutedTree, EventTree.setEventAt, mutedGroup, rewardFunction, EventTree.findFunction?,
        Event.findFunction?]
    obtain rfl : rewardFunction "1" = found := Option.some.inj (hreward.symm.trans hfound)
    exact ⟨rfl, .refl _⟩
  have hsame := run_setEventAt_disabled .builtin hevent rfl houtline hcallable 64
    (Scene.named "scene")
  exact ⟨hevent, rfl, houtline, hsame.1, by decide +kernel⟩

/-- Another function in the disabled group does change the run: it is enabled, and it runs
when it is called. -/
theorem run_setEventAt_mutedTree_ne :
    (mutedTree "1" "1").eventAt [0] = .ok (mutedGroup "1" "1") ∧
      (mutedGroup "1" "1").flags.disabled = true ∧
      (mutedGroup "1" "2").outline = (mutedGroup "1" "1").outline ∧
      EventTree.run .builtin 64 ((mutedTree "1" "1").setEventAt [0] (mutedGroup "1" "2"))
          (Scene.named "scene") ≠
        EventTree.run .builtin 64 (mutedTree "1" "1") (Scene.named "scene") := by
  refine ⟨rfl, rfl, rfl, fun hsame => ?_⟩
  have hscore := congrArg (fun outcome => outcome.2.valueOf? "score") hsame
  revert hscore
  decide +kernel

end SceneLogic

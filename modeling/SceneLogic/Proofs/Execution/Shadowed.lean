import SceneLogic.Execution.Builtin
import SceneLogic.Proofs.Event.Shadowing
import SceneLogic.Proofs.Execution.Simulation

/-!
# Shadowed functions

Of several functions of one name a call finds the one that a walk meets first.  The others are
dead: they do nothing where they stand and no call finds them.  What stands below them is still
found, and it does not matter where they stand themselves, which may be inside a function that
does run.

## Main statements

* `run_setEventAt_shadowed` — what a shadowed function holds does not matter.
-/

namespace SceneLogic

/-- **Shadowed functions are dead.**  Take a function anywhere in a tree and another one of its
name at a lesser path, so that a walk meets it before and calls find it or an even earlier one.
Give the function at the greater path any other flags, argument, conditions and actions.  Then
every run of the tree stays the same, with the same result and the same scene, and so does every
call from outside.  This holds for all instructions, in every scene and at every limit of calls. -/
theorem run_setEventAt_shadowed (registry : Registry) {tree : EventTree} {path earlier : List Nat}
    {flags first : Flags} {signature shadowing : Signature} {body other : Body}
    {events others : EventTree}
    (hevent : tree.eventAt path = .ok (.branch flags (.function signature body) events))
    (hearlier : tree.eventAt earlier = .ok (.branch first (.function shadowing other) others))
    (hname : shadowing.name = signature.name) (hlt : earlier < path)
    (flags' : Flags) (argument : String) (body' : Body) (limit : Nat) (scene : Scene) :
    let changed := tree.setEventAt path
      (.branch flags' (.function ⟨signature.name, argument⟩ body') events)
    EventTree.run registry limit changed scene = EventTree.run registry limit tree scene ∧
      ∀ name, EventTree.callFunction registry limit changed name scene =
        EventTree.callFunction registry limit tree name scene := by
  intro changed
  have halike : EventTree.Alike tree changed :=
    EventTree.alike_of_shadowed (EventTree.leadsTo_of_eventAt hevent) rfl rfl rfl rfl
      (EventTree.leadsTo_of_eventAt hearlier) rfl hname hlt
  have hsame := run_congr registry halike limit scene
  exact ⟨hsame.1.symm, fun name => (hsame.2 name).symm⟩

/-- A function that sets the score, with a group below it. -/
def outerScore (inner : Event) : Event :=
  .branch ⟨false, false⟩ (.function ⟨"Score", ""⟩ ⟨[], [⟨"variables/Set", ["score", "1"], false⟩]⟩)
    [.branch ⟨false, false⟩ (.group ⟨"Inner", "", 0, [], .group⟩) [inner]]

/-- Another function of its name, which holds a function of its own. -/
def innerScore (flags : Flags) (argument : String) (body : Body) : Event :=
  .branch flags (.function ⟨"Score", argument⟩ body)
    [.branch ⟨false, false⟩
      (.function ⟨"Bonus", ""⟩ ⟨[], [⟨"variables/Set", ["bonus", "5"], false⟩]⟩) []]

/-- The second function inside the first, and an event that calls both names. -/
def scoreTree (inner : Event) : EventTree :=
  [outerScore inner,
    .branch ⟨false, false⟩ (.standard ⟨[], [⟨callOperation, ["Score"], false⟩,
      ⟨callOperation, ["Bonus"], false⟩]⟩) []]

/-- Disabled and without actions, or enabled and with an action that does not exist: the inner
function makes no difference, and the function in it runs. -/
theorem run_setEventAt_shadowed_of_scoreTree :
    let idle := innerScore ⟨true, false⟩ "" ⟨[], []⟩
    let broken := innerScore ⟨false, false⟩ "Coin" ⟨[], [⟨"score/Missing", [], false⟩]⟩
    (scoreTree idle).eventAt [0, 0, 0] = .ok idle ∧
      (scoreTree idle).eventAt [0] = .ok (outerScore idle) ∧ [0] < [0, 0, 0] ∧
      EventTree.run .builtin 64 ((scoreTree idle).setEventAt [0, 0, 0] broken)
          (Scene.named "scene") =
        EventTree.run .builtin 64 (scoreTree idle) (Scene.named "scene") ∧
      (EventTree.run .builtin 64 (scoreTree idle) (Scene.named "scene")).1 = .ok () ∧
      (EventTree.run .builtin 64 (scoreTree idle) (Scene.named "scene")).2.valueOf? "bonus" =
        some (Expression.resolve "5") := by
  intro idle broken
  have hevent : (scoreTree idle).eventAt [0, 0, 0] = .ok idle := rfl
  have hearlier : (scoreTree idle).eventAt [0] = .ok (outerScore idle) := rfl
  have hlt : ([0] : List Nat) < [0, 0, 0] := by decide
  have hsame := run_setEventAt_shadowed .builtin hevent hearlier rfl hlt
    ⟨false, false⟩ "Coin" ⟨[], [⟨"score/Missing", [], false⟩]⟩ 64 (Scene.named "scene")
  exact ⟨hevent, hearlier, hlt, hsame.1, by decide +kernel, by decide +kernel⟩

end SceneLogic

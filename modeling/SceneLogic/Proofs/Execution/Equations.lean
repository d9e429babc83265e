import SceneLogic.Execution.Run

/-!
# Equations of a run

How the parts of a tree run, one by one.  What is called counts only through the functions
that are found, so trees in which every name finds the same function have the same calls.

## Main statements

* `EventTree.runFrom_append`, `EventTree.runFrom_singleton` — events by parts.
* `Event.runFrom_standard` — an enabled standard event runs like a function.
* `callFrom_congr` — calls depend on the functions that are found.
-/

namespace SceneLogic

variable (registry : Registry) (call : Call)

/-- Events run one part after the other, up to the first that fails. -/
theorem EventTree.runFrom_append (first second : List Event) (picking : Picking) (scene : Scene) :
    EventTree.runFrom registry call (first ++ second) picking scene =
      match EventTree.runFrom registry call first picking scene with
      | (.error error, scene) => (.error error, scene)
      | (.ok (), scene) => EventTree.runFrom registry call second picking scene := by
  induction first generalizing scene with
  | nil => rfl
  | cons event rest ih =>
    simp only [List.cons_append, EventTree.runFrom]
    rcases event.runFrom registry call picking scene with ⟨_ | _, middle⟩
    · rfl
    · exact ih middle

theorem EventTree.runFrom_singleton (event : Event) (picking : Picking) (scene : Scene) :
    EventTree.runFrom registry call [event] picking scene =
      event.runFrom registry call picking scene := by
  simp only [EventTree.runFrom]
  rcases event.runFrom registry call picking scene with ⟨_ | _, final⟩ <;> rfl

/-- An enabled standard event runs like the body and the sub-events of a function. -/
theorem Event.runFrom_standard (folded : Bool) (function : Function) (picking : Picking)
    (scene : Scene) :
    Event.runFrom registry call (.branch ⟨false, folded⟩ (.standard function.body) function.events)
        picking scene =
      function.runFrom registry call ⟨scene, picking⟩ := by
  simp only [Event.runFrom, Function.runFrom, Bool.false_eq_true, if_false]

/-- Calls depend on a tree by the functions that are found in it. -/
theorem callFrom_congr {tree other : EventTree}
    (h : ∀ name, EventTree.findFunction? name tree = EventTree.findFunction? name other)
    (limit depth : Nat) :
    callFrom registry tree limit depth = callFrom registry other limit depth := by
  induction depth with
  | zero => rfl
  | succ depth ih =>
    funext name objects context
    simp only [callFrom, h, ih]

end SceneLogic

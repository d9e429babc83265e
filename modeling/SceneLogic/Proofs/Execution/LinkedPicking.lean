import SceneLogic.Proofs.Execution.Builtin
import SceneLogic.Proofs.Execution.LiveHandles
import SceneLogic.Proofs.Execution.LiveLinks

/-!
# Picking linked instances

The condition that picks the instances linked with another works in six steps: it takes the
first live instance of one object, then the live ones of the other, puts their list apart, keeps
what is linked, tells whether anything is left, and puts the list back.  In the end one list is
replaced by one filter of its live handles, and the list that the first was taken from is filled
and without dead handles.  That holds in every scene, whatever its links join.

## Main statements

* `Scene.contains_linkedWith` — live handles are among the linked ones if the links say so.
* `Builtin.pickLinked_eq` — the six steps as one.
* `Registry.execute_pickObjectsLinkedTo` — what the condition answers and what it leaves.
-/

namespace SceneLogic

/-- Of two live handles, one is linked with the other if the links join them. -/
theorem Scene.contains_linkedWith {scene : Scene} {target handle : Handle}
    (htarget : scene.objects.isAlive target = true)
    (hhandle : scene.objects.isAlive handle = true) :
    (scene.linkedWith target).contains handle = scene.links.areLinked target handle := by
  rw [linkedWith, if_pos htarget, Links.areLinked, Bool.eq_iff_iff, List.contains_iff_mem,
    List.contains_iff_mem, List.mem_filter, and_iff_left hhandle]

namespace Builtin

/-- What is left of the live handles of an object: those linked with a target, or all of them
if there is none. -/
def leftByLink (context : Context) (object : String) (target : Option Handle) : List Handle :=
  match target with
  | none => context.liveHandles object
  | some target => (context.liveHandles object).filter (context.scene.links.areLinked target)

variable {instruction : Instruction} {object other : String}

/-- The condition answers no if there is no target or nothing is left, and what is left takes
the place of the list. -/
theorem pickLinked_eq (hobject : instruction.name? 0 = some object)
    (hother : instruction.name? 1 = some other) (context : Context) :
    let target := (context.liveHandles other).head?
    let left := leftByLink context object target
    pickLinked instruction context = (.truth (target.isSome && !left.isEmpty),
      { context with picking := (context.refresh other).picking.insert object left }) := by
  intro target left
  let taken := (context.refresh other).refresh object
  have hpicking : taken.picking =
      (context.refresh other).picking.insert object (context.liveHandles object) := by
    rw [← Context.liveHandles_refresh context other object]
    rfl
  have hlist : taken.picking.get? object = some (context.liveHandles object) := by
    rw [hpicking, NameMap.get?_insert, if_pos rfl]
  simp only [pickLinked, withName, hobject, hother, Context.firstPicked?_eq, Context.picked_eq]
  change (let answer := context.scene.pickLinked (taken.picking.splitOff [object]).1 target
    (Output.truth answer.1, { context with
      picking := (taken.picking.splitOff [object]).2.merge answer.2 })) = _
  cases htarget : target with
  | none =>
    have hleft : left = context.liveHandles object := by simp only [left, leftByLink, htarget]
    simp only [Scene.pickLinked, Scene.live?, Option.filter_none, Option.isSome_none,
      Bool.false_and, hleft, ← hpicking, Picking.rejoin_self _ _ hlist]
  | some found =>
    have hfound : context.scene.objects.isAlive found = true :=
      Context.isAlive_of_mem_liveHandles (List.mem_of_head? htarget)
    have hleft : (context.liveHandles object).filter (context.scene.linkedWith found).contains =
        left := by
      simp only [left, leftByLink, htarget]
      exact List.filter_congr fun handle hmem =>
        Scene.contains_linkedWith hfound (Context.isAlive_of_mem_liveHandles hmem)
    have hlive : context.scene.live? (some found) = some found :=
      Scene.live?_eq_some.2 ⟨rfl, hfound⟩
    simp only [Scene.pickLinked, hlive, Picking.anyPicked_splitOff _ _ hlist,
      Picking.rejoin_eq _ _ hlist, hleft, Option.isSome_some, Bool.true_and]
    rw [hpicking, NameMap.insert_insert]

end Builtin

/-- **Picking linked instances, end to end.**  Let the target be the first live handle of the
second object's list, once that is filled.  Without a target the answer is no, and the lists of
both objects are filled and hold their live handles.  With one, the first object is left with
its live handles that are linked with the target, in their order; the answer is whether there
are any; and the list of the second object, if it is another one, is filled and holds its live
handles.  The scene and all other lists stay as they were. -/
theorem Registry.execute_pickObjectsLinkedTo (context : Context) (x y : String)
    (inverted : Bool) :
    let object := Expression.resolveName x
    let other := Expression.resolveName y
    ∃ holds left after,
      builtin.execute ⟨"linked/PickObjectsLinkedTo", [x, y], inverted⟩ .condition context =
        (.ok (.truth holds), after) ∧
      after.scene = context.scene ∧
      (∀ name, after.picking.get? name =
        if name = object then some left
        else if name = other then some (context.liveHandles other)
        else context.picking.get? name) ∧
      match (context.liveHandles other).head? with
      | none => holds = false ∧ left = context.liveHandles object
      | some target => (holds = true ↔ left ≠ []) ∧
          left = (context.liveHandles object).filter (context.scene.links.areLinked target) := by
  intro object other
  let target := (context.liveHandles other).head?
  let left := Builtin.leftByLink context object target
  let instruction : Instruction := ⟨"linked/PickObjectsLinkedTo", [x, y], inverted⟩
  have hobject : instruction.name? 0 = some object := rfl
  have hother : instruction.name? 1 = some other := rfl
  have hoffers : builtin.Offers instruction.operation .condition 2 Builtin.pickLinked :=
    ⟨_, (get?_builtin _).trans rfl, rfl, rfl⟩
  have hexecute : builtin.execute instruction .condition context =
      (.ok (.truth (target.isSome && !left.isEmpty)),
        { context with picking := (context.refresh other).picking.insert object left }) := by
    rw [hoffers.execute rfl, Builtin.pickLinked_eq hobject hother]
    rfl
  refine ⟨_, left, _, hexecute, rfl, fun name => ?_, ?_⟩
  · rw [NameMap.get?_insert, Context.get?_refresh]
  · cases htarget : (context.liveHandles other).head? with
    | none =>
      have hnone : target = none := htarget
      simp only [left, hnone]
      exact ⟨rfl, rfl⟩
    | some found =>
      have hsome : target = some found := htarget
      simp only [left, hsome]
      exact ⟨by simp, rfl⟩

end SceneLogic

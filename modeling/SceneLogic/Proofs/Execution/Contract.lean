import SceneLogic.Execution.Run
import SceneLogic.Proofs.Event.Uses

/-!
# Contracts of a run

A contract says how the scene may change, with which errors a run may end, and which
functions may be asked for.  If every single instruction of a tree respects a
contract, then so does a run of the tree, however its events nest and its functions
call each other.  The induction over events and the one over the depth of calls are
done here once; a property of runs is then a property of single instructions.

## Main definitions

* `Contract` — what a run is held to; `Contract.Allows` — a run that keeps to it.
* `Contract.Respected` — the single instructions keep to it.

## Main statements

* `Contract.Respected.events` — events keep to it if the calls they make do.
* `Contract.Respected.callFrom` — calls keep to it, however deep they may nest.
* `Contract.Respected.run` — a run keeps to it.
-/

namespace SceneLogic

/-- What a run is held to: the scenes that a scene may turn into, the errors it may end
with and the functions that its actions may ask for. -/
structure Contract where
  later : Scene → Scene → Prop
  fault : ExecutionError → Prop
  asked : String → Prop

namespace Contract

variable {contract : Contract} {registry : Registry} {call : Call}
  {uses : List (InstructionKind × Instruction)} {α : Type}

/-- The contract allows to end in this way, in this scene, after a start in that one. -/
def Allows (contract : Contract) (start : Scene) (result : Except ExecutionError α)
    (final : Scene) : Prop :=
  contract.later start final ∧ ∀ error, result = .error error → contract.fault error

/-- The contract allows all calls of functions that may be asked for. -/
def AllowsCalls (contract : Contract) (call : Call) : Prop :=
  ∀ function objects context, contract.asked function →
    contract.Allows context.scene (call function objects context).1
      (call function objects context).2.scene

/-- Each of the given instructions keeps to the contract wherever it is carried out. -/
structure Respected (contract : Contract) (registry : Registry)
    (uses : List (InstructionKind × Instruction)) : Prop where
  refl : ∀ scene, contract.later scene scene
  trans : ∀ {first second third}, contract.later first second → contract.later second third →
    contract.later first third
  execute : ∀ {kind instruction}, (kind, instruction) ∈ uses → ∀ context,
    contract.Allows context.scene (registry.execute instruction kind context).1
      (registry.execute instruction kind context).2.scene
  truth : ∀ {instruction context output}, (.condition, instruction) ∈ uses →
    (registry.execute instruction .condition context).1 = .ok output → output.truth? = none →
    contract.fault (.instructionFailed instruction.operation "condition produced no result")
  call : ∀ {instruction context function objects}, (.action, instruction) ∈ uses →
    (registry.execute instruction .action context).1 = .ok (.call function objects) →
    contract.asked function

namespace Respected

/-- Fewer instructions keep to the contract too. -/
theorem mono {fewer : List (InstructionKind × Instruction)}
    (respected : contract.Respected registry uses) (subset : fewer ⊆ uses) :
    contract.Respected registry fewer where
  refl := respected.refl
  trans := respected.trans
  execute mem := respected.execute (subset mem)
  truth mem := respected.truth (subset mem)
  call mem := respected.call (subset mem)

/-- A success that leaves the scene as it is. -/
theorem skip (respected : contract.Respected registry uses) (scene : Scene) (value : α) :
    contract.Allows scene (.ok value) scene :=
  ⟨respected.refl scene, nofun⟩

/-- What comes after a success may end in any way that is allowed from there. -/
theorem andThen (respected : contract.Respected registry uses) {start middle final : Scene}
    {result : Except ExecutionError α} (h : contract.later start middle)
    (hnext : contract.Allows middle result final) : contract.Allows start result final :=
  ⟨respected.trans h hnext.1, hnext.2⟩

/-! ## Bodies -/

theorem conditionsPass (respected : contract.Respected registry uses)
    {conditions : List Instruction}
    (used : ∀ condition ∈ conditions, (.condition, condition) ∈ uses) (context : Context) :
    contract.Allows context.scene (conditionsPass registry conditions context).1
      (conditionsPass registry conditions context).2.scene := by
  induction conditions generalizing context with
  | nil => exact respected.skip _ _
  | cons condition rest ih =>
    have hmem := used condition List.mem_cons_self
    have hstep := respected.execute hmem context
    simp only [SceneLogic.conditionsPass]
    split
    next error final heq =>
      rw [heq] at hstep
      exact ⟨hstep.1, fun other h => hstep.2 other (by cases h; rfl)⟩
    next output final heq =>
      rw [heq] at hstep
      split
      next hnone =>
        refine ⟨hstep.1, fun error h => ?_⟩
        cases h
        exact respected.truth hmem (by rw [heq]) hnone
      next holds _ =>
        by_cases hend : holds = condition.inverted
        · rw [if_pos hend]
          exact ⟨hstep.1, nofun⟩
        · rw [if_neg hend]
          exact respected.andThen hstep.1
            (ih (fun other mem => used other (List.mem_cons_of_mem _ mem)) final)

theorem runAction (respected : contract.Respected registry uses) (calls : contract.AllowsCalls call)
    {action : Instruction} (hmem : (.action, action) ∈ uses) (context : Context) :
    contract.Allows context.scene (runAction registry call action context).1
      (runAction registry call action context).2.scene := by
  have hstep := respected.execute hmem context
  unfold SceneLogic.runAction
  split
  next error final heq =>
    rw [heq] at hstep
    exact ⟨hstep.1, fun other h => hstep.2 other (by cases h; rfl)⟩
  next function objects final heq =>
    have hasked := respected.call hmem (by rw [heq])
    rw [heq] at hstep
    exact respected.andThen hstep.1 (calls function objects final hasked)
  next output final _ heq =>
    rw [heq] at hstep
    exact ⟨hstep.1, nofun⟩

theorem runActions (respected : contract.Respected registry uses)
    (calls : contract.AllowsCalls call) {actions : List Instruction}
    (used : ∀ action ∈ actions, (.action, action) ∈ uses) (context : Context) :
    contract.Allows context.scene (runActions registry call actions context).1
      (runActions registry call actions context).2.scene := by
  induction actions generalizing context with
  | nil => exact respected.skip _ _
  | cons action rest ih =>
    have hstep := respected.runAction calls (used action List.mem_cons_self) context
    simp only [SceneLogic.runActions]
    split
    next error final heq =>
      rw [heq] at hstep
      exact hstep
    next final heq =>
      rw [heq] at hstep
      exact respected.andThen hstep.1
        (ih (fun other mem => used other (List.mem_cons_of_mem _ mem)) final)

theorem runBody (respected : contract.Respected registry uses) (calls : contract.AllowsCalls call)
    {body : Body} (used : body.uses ⊆ uses) (context : Context) :
    contract.Allows context.scene (runBody registry call body context).1
      (runBody registry call body context).2.scene := by
  have hconditions : ∀ condition ∈ body.conditions, (.condition, condition) ∈ uses := by
    intro condition mem
    exact used (List.mem_append_left _ (List.mem_map_of_mem mem))
  have hactions : ∀ action ∈ body.actions, (.action, action) ∈ uses := by
    intro action mem
    exact used (List.mem_append_right _ (List.mem_map_of_mem mem))
  have hpass := respected.conditionsPass hconditions context
  unfold SceneLogic.runBody
  split
  next middle heq =>
    rw [heq] at hpass
    have hrun := respected.runActions calls hactions middle
    split
    next error final heq2 =>
      rw [heq2] at hrun
      exact respected.andThen hpass.1 ⟨hrun.1, fun other h => hrun.2 other (by cases h; rfl)⟩
    next final heq2 =>
      rw [heq2] at hrun
      exact respected.andThen hpass.1 ⟨hrun.1, nofun⟩
  next result final _ heq =>
    rw [heq] at hpass
    exact hpass

/-! ## Events -/

mutual

/-- An event keeps to the contract if what it carries out in place and the calls it makes do. -/
theorem event (calls : contract.AllowsCalls call) :
    ∀ {event : Event}, contract.Respected registry event.usesInPlace →
      ∀ (picking : Picking) (scene : Scene),
        contract.Allows scene (event.runFrom registry call picking scene).1
          (event.runFrom registry call picking scene).2
  | .comment _ _, respected, picking, scene => respected.skip _ _
  | .branch flags header children, respected, picking, scene => by
    simp only [Event.runFrom]
    split
    next => exact respected.skip _ _
    next =>
      -- Only a standard event does something before its sub-events run.
      cases header with
      | standard body =>
        have hbody := respected.runBody calls (List.subset_append_left _ _) ⟨scene, picking⟩
        dsimp only
        split
        next error final heq =>
          rw [heq] at hbody
          exact ⟨hbody.1, fun other h => hbody.2 other (by cases h; rfl)⟩
        next final heq =>
          rw [heq] at hbody
          exact ⟨hbody.1, nofun⟩
        next middle heq =>
          rw [heq] at hbody
          exact respected.andThen hbody.1 (events calls
            (respected.mono (List.subset_append_right _ _)) middle.picking middle.scene)
      | group info => exact events calls respected picking scene
      | function signature body => exact respected.skip _ _

/-- Events keep to the contract if what they carry out in place and the calls they make do. -/
theorem events (calls : contract.AllowsCalls call) :
    ∀ {events : List Event}, contract.Respected registry (EventTree.usesInPlace events) →
      ∀ (picking : Picking) (scene : Scene),
        contract.Allows scene (EventTree.runFrom registry call events picking scene).1
          (EventTree.runFrom registry call events picking scene).2
  | [], respected, picking, scene => respected.skip _ _
  | first :: rest, respected, picking, scene => by
    have hfirst := event calls (respected.mono (List.subset_append_left _ _)) picking scene
    simp only [EventTree.runFrom]
    split
    next error final heq =>
      rw [heq] at hfirst
      exact hfirst
    next middle heq =>
      rw [heq] at hfirst
      exact respected.andThen hfirst.1
        (events calls (respected.mono (List.subset_append_right _ _)) picking middle)

end

/-! ## Calls -/

theorem function (calls : contract.AllowsCalls call) {function : Function}
    (respected : contract.Respected registry function.usesInPlace) (context : Context) :
    contract.Allows context.scene (function.runFrom registry call context).1
      (function.runFrom registry call context).2 := by
  have hbody := respected.runBody calls (List.subset_append_left _ _) context
  unfold Function.runFrom
  split
  next error final heq =>
    rw [heq] at hbody
    exact ⟨hbody.1, fun other h => hbody.2 other (by cases h; rfl)⟩
  next final heq =>
    rw [heq] at hbody
    exact ⟨hbody.1, nofun⟩
  next middle heq =>
    rw [heq] at hbody
    exact respected.andThen hbody.1 (Respected.events calls
      (respected.mono (List.subset_append_right _ _)) middle.picking middle.scene)

/-- Calls keep to the contract, however deep they may nest.  The induction is on how
deep they still may: a function that is called makes its own calls one level below. -/
theorem callFrom {tree : EventTree} {limit : Nat}
    (respected : contract.Respected registry tree.uses)
    (exceeded : contract.fault (.callDepthExceeded limit))
    (missing : ∀ {name}, contract.asked name → EventTree.findFunction? name tree = none →
      contract.fault (.functionNotFound name)) (depth : Nat) :
    contract.AllowsCalls (callFrom registry tree limit depth) := by
  induction depth with
  | zero =>
    intro name objects context _
    refine ⟨respected.refl _, fun error h => ?_⟩
    cases h
    exact exceeded
  | succ depth ih =>
    intro name objects context hasked
    unfold SceneLogic.callFrom
    split
    next hnone =>
      refine ⟨respected.refl _, fun error h => ?_⟩
      cases h
      exact missing hasked hnone
    next found hfound =>
      by_cases hdisabled : found.flags.disabled = true
      · rw [if_pos hdisabled]
        exact respected.skip _ _
      · rw [if_neg hdisabled]
        have hused : found.usesInPlace ⊆ tree.uses := fun use mem =>
          EventTree.uses_subset_of_findFunction? hfound (found.usesInPlace_subset mem)
        exact Respected.function ih (respected.mono hused)
          ⟨context.scene, (bindArgument found objects context).1⟩

/-- A run keeps to the contract if every instruction of its tree does. -/
theorem run {tree : EventTree} {limit : Nat} (respected : contract.Respected registry tree.uses)
    (exceeded : contract.fault (.callDepthExceeded limit))
    (missing : ∀ {name}, contract.asked name → EventTree.findFunction? name tree = none →
      contract.fault (.functionNotFound name)) (scene : Scene) :
    contract.Allows scene (EventTree.run registry limit tree scene).1
      (EventTree.run registry limit tree scene).2 :=
  Respected.events (respected.callFrom exceeded missing limit)
    (respected.mono (EventTree.usesInPlace_subset tree)) ∅ scene

end Respected

end Contract

end SceneLogic

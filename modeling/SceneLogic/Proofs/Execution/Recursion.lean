import Mathlib.Data.Finset.Card
import Mathlib.Logic.Relation
import SceneLogic.Proofs.Execution.Builtin
import SceneLogic.Proofs.Execution.CallDepth

/-!
# Calls nest deep by recursion only

A function calls another if an action that it carries out names the other: an action of its
own, or one of the events below it, functions apart.  Of the functions that are active at
once, each has called the next one.  If no function calls itself, directly or by way of
others, then none of them is active twice; as each is what is found under its name, there
are at most as many as there are names, and a limit beyond that number is never met.

## Main definitions

* `EventTree.Calls` — a function calls another.
* `EventTree.CallStack` — functions that may be active at once.

## Main statements

* `EventTree.CallStack.length_le` — how many functions may be active at once.
* `run_ne_callDepthExceeded` — without recursion the limit of calls is never met.
-/

namespace SceneLogic

/-! ## Who calls whom -/

/-- A function that is called may ask for a function of this name. -/
def Function.Asks (function : Function) (name : String) : Prop :=
  ∃ action, (.action, action) ∈ function.usesInPlace ∧ action.operation = callOperation ∧
    action.name? 0 = some name

namespace EventTree

/-- A function asks for a name under which the tree holds the other. -/
def Calls (tree : EventTree) (caller callee : Function) : Prop :=
  ∃ name, caller.Asks name ∧ findFunction? name tree = some callee

/-- No function of the tree calls itself, directly or by way of others. -/
def NonRecursive (tree : EventTree) : Prop :=
  ∀ function ∈ tree.functions, ¬ Relation.TransGen tree.Calls function function

/-- The names of the functions of a tree. -/
def functionNames (tree : EventTree) : Finset String :=
  (tree.functions.map (·.signature.name)).toFinset

theorem name_of_findFunction? {tree : EventTree} {name : String} {function : Function}
    (h : findFunction? name tree = some function) : function.signature.name = name := by
  rw [findFunction?_eq_find?] at h
  simpa using List.find?_some h

/-- Functions that ask only for names of lower rank are not recursive. -/
theorem nonRecursive_of_rank {tree : EventTree} (rank : String → Nat)
    (hrank : ∀ caller ∈ tree.functions, ∀ name, caller.Asks name →
      rank name < rank caller.signature.name) : tree.NonRecursive := by
  intro function hmem hcycle
  have hlower : ∀ {caller callee}, Relation.TransGen tree.Calls caller callee →
      caller ∈ tree.functions → rank callee.signature.name < rank caller.signature.name := by
    intro caller callee hcalls hcaller
    induction hcalls using Relation.TransGen.head_induction_on with
    | single hcall =>
      obtain ⟨name, hasks, hfound⟩ := hcall
      exact name_of_findFunction? hfound ▸ hrank _ hcaller name hasks
    | head hcall _ ih =>
      obtain ⟨name, hasks, hfound⟩ := hcall
      have hfirst := hrank _ hcaller name hasks
      rw [← name_of_findFunction? hfound] at hfirst
      exact Nat.lt_trans (ih (mem_functions_of_findFunction? hfound)) hfirst
  exact Nat.lt_irrefl _ (hlower hcycle hmem)

/-! ## Active functions -/

/-- Functions that may be active at once, the innermost first.  Each is what is found under
its name, and it was called by the ones behind it, directly or by way of others. -/
structure CallStack (tree : EventTree) (stack : List Function) : Prop where
  found : ∀ function ∈ stack, findFunction? function.signature.name tree = some function
  called : stack.Pairwise fun inner outer => Relation.TransGen tree.Calls outer inner

namespace CallStack

variable {tree : EventTree} {stack : List Function} {caller callee : Function} {name : String}

theorem nil (tree : EventTree) : tree.CallStack [] := ⟨nofun, .nil⟩

theorem singleton (hfound : findFunction? name tree = some callee) : tree.CallStack [callee] where
  found := by
    rw [List.forall_mem_singleton, name_of_findFunction? hfound, hfound]
  called := List.pairwise_singleton _ _

/-- A function that the innermost one calls comes on top. -/
theorem push (hstack : tree.CallStack (caller :: stack)) (hasks : caller.Asks name)
    (hfound : findFunction? name tree = some callee) :
    tree.CallStack (callee :: caller :: stack) where
  found := by
    rw [List.forall_mem_cons, name_of_findFunction? hfound]
    exact ⟨hfound, hstack.found⟩
  called := by
    have hcalls : tree.Calls caller callee := ⟨name, hasks, hfound⟩
    refine List.pairwise_cons.2 ⟨fun outer hmem => ?_, hstack.called⟩
    rcases List.mem_cons.1 hmem with rfl | hmem
    · exact .single hcalls
    · exact .tail ((List.pairwise_cons.1 hstack.called).1 outer hmem) hcalls

/-- **At most as many functions are active at once as there are names**, if none is
recursive: two of one name would be one function, which has called itself. -/
theorem length_le (hnonRecursive : tree.NonRecursive) (hstack : tree.CallStack stack) :
    stack.length ≤ tree.functionNames.card := by
  have hnodup : (stack.map (·.signature.name)).Nodup := by
    rw [List.Nodup, List.pairwise_map]
    refine hstack.called.imp_of_mem fun {inner outer} hinner houter hcalled hname => ?_
    have hsame : inner = outer := by
      have hfound := hstack.found inner hinner
      rw [hname, hstack.found outer houter] at hfound
      exact (Option.some.inj hfound).symm
    exact hnonRecursive inner (mem_functions_of_findFunction? (hstack.found inner hinner))
      (hsame ▸ hcalled)
  have hsubset : (stack.map (·.signature.name)).toFinset ⊆ tree.functionNames := by
    intro name hname
    obtain ⟨function, hmem, rfl⟩ := List.mem_map.1 (List.mem_toFinset.1 hname)
    exact List.mem_toFinset.2 (List.mem_map.2
      ⟨function, mem_functions_of_findFunction? (hstack.found function hmem), rfl⟩)
  calc stack.length
      = (stack.map (·.signature.name)).toFinset.card := by
        rw [List.toFinset_card_of_nodup hnodup, List.length_map]
    _ ≤ tree.functionNames.card := Finset.card_le_card hsubset

end CallStack

end EventTree

/-! ## Calls and the limit -/

/-- The contract of runs that do not end at the limit and ask for these functions only. -/
def shallowContract (asked : String → Prop) : Contract where
  later _ _ := True
  fault error := ¬ error.IsDepth
  asked := asked

/-- A built-in action asks for the function that it names. -/
theorem Registry.asks_of_execute_builtin {action : Instruction} {context : Context}
    {name : String} {objects : Option String}
    (h : (builtin.execute action .action context).1 = .ok (.call name objects)) :
    action.operation = callOperation ∧ action.name? 0 = some name := by
  have hstep := execute_builtin action .action context
  generalize builtin.execute action .action context = step at hstep h
  cases hstep with
  | refused invalid => cases h
  | answered valid id ofKind fits frame =>
    cases fits with
    | call kind isCall named objects =>
      cases h
      exact ⟨id.symm.trans isCall, named⟩
    | done _ | truth _ _ | unknownOperator _ _ => cases h

theorem respected_shallowContract {asked : String → Prop}
    {uses : List (InstructionKind × Instruction)}
    (hasked : ∀ action name, (.action, action) ∈ uses → action.operation = callOperation →
      action.name? 0 = some name → asked name) :
    (shallowContract asked).Respected .builtin uses where
  refl _ := trivial
  trans _ _ := trivial
  execute _ _ := ⟨trivial, fun _ h => Registry.not_isDepth_execute h⟩
  truth _ _ _ := fun ⟨_, hdepth⟩ => nomatch hdepth
  call hmem h := by
    obtain ⟨hoperation, hname⟩ := Registry.asks_of_execute_builtin h
    exact hasked _ _ hmem hoperation hname

/-- Calls do not end at the limit as long as the levels that are left outnumber the names that
are not on the stack.  The induction is on these levels: what is called is pushed on the
stack, which cannot grow beyond the names. -/
theorem allowsCalls_of_callStack {tree : EventTree} (hnonRecursive : tree.NonRecursive)
    {limit depth : Nat} {stack : List Function} {asked : String → Prop}
    (hstack : tree.CallStack stack)
    (hpush : ∀ name callee, asked name → EventTree.findFunction? name tree = some callee →
      tree.CallStack (callee :: stack))
    (hdepth : tree.functionNames.card < depth + stack.length) :
    (shallowContract asked).AllowsCalls (callFrom .builtin tree limit depth) := by
  induction depth generalizing stack asked with
  | zero =>
    have hlength := hstack.length_le hnonRecursive
    omega
  | succ depth ih =>
    intro name objects context hname
    refine ⟨trivial, fun error h => ?_⟩
    unfold callFrom at h
    split at h
    next =>
      cases h
      rintro ⟨_, hdepth⟩
      cases hdepth
    next callee hfound =>
      split at h
      next => cases h
      next =>
        have hcallee := hpush name callee hname hfound
        have hcalls : (shallowContract callee.Asks).AllowsCalls
            (callFrom .builtin tree limit depth) := by
          refine ih hcallee (fun _ _ hasks => hcallee.push hasks) ?_
          rw [List.length_cons]
          omega
        have hrespected : (shallowContract callee.Asks).Respected .builtin callee.usesInPlace :=
          respected_shallowContract fun action _ hmem hoperation hname =>
            ⟨action, hmem, hoperation, hname⟩
        exact (hrespected.function hcalls _).2 error h

/-- **Only recursion meets the limit of calls.**  If no function of a tree calls itself,
directly or by way of others, and the limit is greater than the number of names that its
functions have, then neither a run of the tree nor a call from outside ends at the limit, in
any scene. -/
theorem run_ne_callDepthExceeded {tree : EventTree} (hnonRecursive : tree.NonRecursive)
    {limit : Nat} (hlimit : tree.functionNames.card < limit) (scene : Scene) :
    (∀ named, (EventTree.run .builtin limit tree scene).1 ≠ .error (.callDepthExceeded named)) ∧
    ∀ name named, (EventTree.callFunction .builtin limit tree name scene).1 ≠
      .error (.callDepthExceeded named) := by
  have hcalls : (shallowContract fun _ => True).AllowsCalls (callFrom .builtin tree limit limit) :=
    allowsCalls_of_callStack hnonRecursive (.nil tree) (fun _ _ _ => .singleton) hlimit
  have hrespected : (shallowContract fun _ => True).Respected .builtin
      (EventTree.usesInPlace tree) :=
    respected_shallowContract fun _ _ _ _ _ => trivial
  refine ⟨fun named h => ?_, fun name named h => ?_⟩
  · exact (hrespected.events hcalls ∅ scene).2 _ h ⟨named, rfl⟩
  · exact (hcalls name none ⟨scene, ∅⟩ trivial).2 _ h ⟨named, rfl⟩

/-- A function that calls two others, the second of them from a group, and a function that
both of these call. -/
def tieredTree : EventTree :=
  [.branch ⟨false, false⟩ (.function ⟨"Top", ""⟩ ⟨[], [⟨callOperation, ["Left"], false⟩]⟩)
      [.branch ⟨false, false⟩ (.group ⟨"More", "", 0, [], .group⟩)
        [.branch ⟨false, false⟩ (.standard ⟨[], [⟨callOperation, ["\"Right\""], false⟩]⟩) []]],
    .branch ⟨false, false⟩ (.function ⟨"Left", ""⟩ ⟨[], [⟨callOperation, ["Base"], false⟩]⟩) [],
    .branch ⟨false, false⟩ (.function ⟨"Right", ""⟩ ⟨[], [⟨callOperation, ["Base"], false⟩]⟩) [],
    .branch ⟨false, false⟩
      (.function ⟨"Base", ""⟩ ⟨[], [⟨callOperation, ["Missing"], false⟩]⟩) [],
    .branch ⟨false, false⟩ (.standard ⟨[], [⟨callOperation, ["Top"], false⟩]⟩) []]

/-- How many calls lie between a function of the tree and the missing one. -/
def tierOf (name : String) : Nat :=
  if name = "Top" then 3 else if name = "Left" ∨ name = "Right" then 2
  else if name = "Base" then 1 else 0

theorem nonRecursive_tieredTree : tieredTree.NonRecursive := by
  have hranks : ∀ caller ∈ tieredTree.functions, ∀ use ∈ caller.usesInPlace,
      ∀ name ∈ use.2.name? 0, tierOf name < tierOf caller.signature.name := by
    decide +kernel
  refine EventTree.nonRecursive_of_rank tierOf ?_
  rintro caller hcaller name ⟨action, hmem, -, hname⟩
  exact hranks caller hcaller _ hmem name hname

/-- Three calls nest here, and the fourth finds no function; five levels are enough for the
four names of functions. -/
theorem run_ne_callDepthExceeded_of_tieredTree :
    tieredTree.NonRecursive ∧ tieredTree.functionNames.card < 5 ∧
      (∀ named, (EventTree.run .builtin 5 tieredTree (Scene.named "scene")).1 ≠
        .error (.callDepthExceeded named)) ∧
      (EventTree.run .builtin 5 tieredTree (Scene.named "scene")).1 =
        .error (.functionNotFound "Missing") := by
  have hnames : tieredTree.functionNames.card < 5 := by decide +kernel
  have hlimit := run_ne_callDepthExceeded nonRecursive_tieredTree hnames (Scene.named "scene")
  exact ⟨nonRecursive_tieredTree, hnames, hlimit.1, by decide +kernel⟩

end SceneLogic

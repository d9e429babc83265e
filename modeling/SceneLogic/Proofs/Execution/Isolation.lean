import SceneLogic.Execution.Builtin
import SceneLogic.Execution.Run
import SceneLogic.Proofs.Objects.Picking
import SceneLogic.Proofs.Objects.StoreHistory

/-!
# Calls and what their callers have picked

A called function sees of its caller's picking the live handles of the list that is passed,
and nothing else.  It works on lists of its own, so whatever it picks, creates and deletes,
the caller has picked afterwards what it had picked before; only a passed list that the caller
had not mentioned yet is there from then on, since passing it mentions it.

## Main definitions

* `Context.liveHandles` — the live handles of the list of an object.
* `Function.passed?` — the object whose list a call passes on.

## Main statements

* `bindArgument_fst`, `get?_bindArgument` — the lists of the function and of the caller.
* `callFrom_isolated` — what a call takes from its caller and what it leaves there.
-/

namespace SceneLogic

/-- The live handles of the list of an object; where it has no list, of all its instances. -/
def Context.liveHandles (context : Context) (object : String) : List Handle :=
  ((context.picking.get? object).getD (context.scene.objects.instancesOf object)).filter
    context.scene.objects.isAlive

theorem Context.picked_fst (context : Context) (object : String) :
    (context.picked object).1 = context.liveHandles object := by
  unfold picked Picking.picked Picking.ensure liveHandles
  cases context.picking.get? object <;> rfl

/-! ## Passing a list -/

/-- The object whose list a call passes on: none if the function has no argument. -/
def Function.passed? (function : Function) (objects : Option String) : Option String :=
  if function.signature.argument = "" then none else objects

variable (function : Function) (objects : Option String) (context : Context)

/-- If nothing is passed, the function has no list and the caller keeps its own. -/
theorem bindArgument_of_none (hpassed : function.passed? objects = none) :
    bindArgument function objects context = (∅, context.picking) := by
  unfold Function.passed? at hpassed
  unfold bindArgument
  split at hpassed
  next hargument => cases objects <;> simp [hargument]
  next => rw [hpassed]

/-- If a list is passed, the function has its live handles, and the caller mentioned it. -/
theorem bindArgument_of_some {object : String} (hpassed : function.passed? objects = some object) :
    bindArgument function objects context =
      (NameMap.empty.insert function.signature.argument (context.liveHandles object),
        (context.picking.ensure object context.scene.objects).2) := by
  unfold Function.passed? at hpassed
  unfold bindArgument
  split at hpassed
  next => cases hpassed
  next hargument =>
    rw [hpassed, ← Context.picked_fst]
    exact if_neg hargument

/-- A function starts from the passed list alone, which holds live handles only. -/
theorem bindArgument_fst :
    (bindArgument function objects context).1.entries =
      ((function.passed? objects).map fun object =>
        (function.signature.argument, context.liveHandles object)).toList := by
  cases hpassed : function.passed? objects with
  | none => rw [bindArgument_of_none function objects context hpassed]; rfl
  | some object => rw [bindArgument_of_some function objects context hpassed]; rfl

/-- The caller keeps its lists; the passed one is filled if it was not there. -/
theorem get?_bindArgument (object : String) :
    (bindArgument function objects context).2.get? object =
      (context.picking.get? object).or
        (if function.passed? objects = some object then
          some (context.scene.objects.instancesOf object) else none) := by
  cases hpassed : function.passed? objects with
  | none => simp [bindArgument_of_none function objects context hpassed]
  | some passed =>
    rw [bindArgument_of_some function objects context hpassed, Picking.get?_ensure]
    by_cases hobject : passed = object
    · subst hobject
      simp
    · simp [hobject]

/-- Where the same live handles are passed, functions start from the same lists. -/
theorem bindArgument_fst_congr {other : Context}
    (hsame : ∀ object, function.passed? objects = some object →
      other.liveHandles object = context.liveHandles object) :
    (bindArgument function objects other).1 = (bindArgument function objects context).1 := by
  cases hpassed : function.passed? objects with
  | none =>
    rw [bindArgument_of_none function objects other hpassed,
      bindArgument_of_none function objects context hpassed]
  | some object =>
    rw [bindArgument_of_some function objects other hpassed,
      bindArgument_of_some function objects context hpassed, hsame object hpassed]

/-! ## Calling -/

/-- A call of an enabled function runs its body on the lists of the function, and the caller
goes on with lists of its own. -/
theorem callFrom_of_enabled (registry : Registry) {tree : EventTree} {name : String}
    (hfound : EventTree.findFunction? name tree = some function)
    (henabled : function.flags.disabled = false) (limit depth : Nat) :
    callFrom registry tree limit (depth + 1) name objects context =
      let outcome := function.runFrom registry (callFrom registry tree limit depth)
        ⟨context.scene, (bindArgument function objects context).1⟩
      (outcome.1, ⟨outcome.2, (bindArgument function objects context).2⟩) := by
  simp only [callFrom, hfound, henabled, Bool.false_eq_true, if_false]

/-- **Calls are isolated from what their callers have picked.**  Take an enabled function
that a call finds, and a call of it that is not too deep, with or without an object whose list
is passed.  Whatever the function does, and whether it ends with an error or not:

* Its body starts from no list at all, or, if a list is passed to an argument, from the one
  list of the argument, which holds the live handles of the passed list in their order.
* The caller keeps every list that it has as it is.  Of the lists that it does not have, only
  a passed one is there afterwards, with all instances of its object when the call was made;
  that is with every handle that was alive then and named one, and, where slots can be
  numbered, with no other.
* The result and the final scene are the same for every other caller in the same scene whose
  passed list has the same live handles in the same order once it is filled; if no list is
  passed they are the same for every caller.

This holds for all instructions, for every tree and every scene. -/
theorem callFrom_isolated (registry : Registry) {tree : EventTree} {name : String}
    {function : Function} (hfound : EventTree.findFunction? name tree = some function)
    (henabled : function.flags.disabled = false) (limit depth : Nat) (objects : Option String)
    (context : Context) :
    let call := callFrom registry tree limit (depth + 1) name objects
    let store := context.scene.objects
    (∃ lists : Picking,
      lists.entries = ((function.passed? objects).map fun object =>
        (function.signature.argument, context.liveHandles object)).toList ∧
      ((call context).1, (call context).2.scene) =
        function.runFrom registry (callFrom registry tree limit depth) ⟨context.scene, lists⟩) ∧
    (∀ object, (call context).2.picking.get? object =
      (context.picking.get? object).or
        (if function.passed? objects = some object then some (store.instancesOf object)
          else none)) ∧
    (∀ handle item, store.get? handle = some item → handle ∈ store.instancesOf item.object) ∧
    (store.slots.length ≤ UInt32.size → ∀ object, ∀ handle ∈ store.instancesOf object,
      ∃ item, store.get? handle = some item ∧ item.object = object) ∧
    ∀ other : Context, other.scene = context.scene →
      (∀ object, function.passed? objects = some object →
        other.liveHandles object = context.liveHandles object) →
      (call other).1 = (call context).1 ∧ (call other).2.scene = (call context).2.scene := by
  intro call store
  have hcall : ∀ context, call context = _ := fun context =>
    callFrom_of_enabled function objects context registry hfound henabled limit depth
  refine ⟨⟨(bindArgument function objects context).1, ?_, ?_⟩, fun object => ?_, ?_, ?_, ?_⟩
  · exact bindArgument_fst function objects context
  · rw [hcall]
  · rw [hcall]
    exact get?_bindArgument function objects context object
  · exact fun handle item => Store.mem_instancesOf_of_get?
  · exact fun hlength object handle => Store.exists_of_mem_instancesOf hlength
  · intro other hscene hpassed
    rw [hcall, hcall, bindArgument_fst_congr function objects context hpassed, hscene]
    exact ⟨rfl, rfl⟩

/-- A function that marks the coins it is given and has another function delete them. -/
def collectFunction : Function :=
  ⟨⟨false, false⟩, ⟨"Collect", "Coin"⟩,
    ⟨[], [⟨"objects/SetVar", ["Coin", "taken", "true"], false⟩]⟩,
    [.branch ⟨false, false⟩ (.standard ⟨[], [⟨callOperation, ["Remove", "Coin"], false⟩]⟩) []]⟩

/-- The function and the one that it calls. -/
def collectTree : EventTree :=
  [.branch collectFunction.flags (.function collectFunction.signature collectFunction.body)
      collectFunction.events,
    .branch ⟨false, false⟩
      (.function ⟨"Remove", "Item"⟩ ⟨[], [⟨"objects/Delete", ["Item"], false⟩]⟩) []]

/-- Three coins that are left of four. -/
def threeCoins : Scene :=
  { Scene.named "scene" with
    objects := Store.after
      [.create "Coin", .create "Coin", .create "Coin", .create "Coin", .destroy ⟨1, 0⟩] }

/-- A caller that picked some of the coins. -/
def coinCaller (coins : List Handle) : Context :=
  ⟨threeCoins, (∅ : Picking).insert "Coin" coins⟩

/-- The call that passes these coins. -/
def collect (coins : List Handle) : Except ExecutionError Unit × Context :=
  callFrom .builtin collectTree 64 (1 + 1) "Collect" (some "Coin") (coinCaller coins)

/-- The argument has the name of the caller's list.  The caller keeps its list, with a handle
that was dead before and two that died during the call; the coin that was not passed stays,
and the dead handle made no difference. -/
theorem callFrom_isolated_of_collectTree :
    EventTree.findFunction? "Collect" collectTree = some collectFunction ∧
      collectFunction.flags.disabled = false ∧
      (collect [⟨2, 0⟩, ⟨1, 0⟩, ⟨0, 0⟩]).1 = .ok () ∧
      (collect [⟨2, 0⟩, ⟨1, 0⟩, ⟨0, 0⟩]).2.picking.get? "Coin" =
        some [⟨2, 0⟩, ⟨1, 0⟩, ⟨0, 0⟩] ∧
      (collect [⟨2, 0⟩, ⟨0, 0⟩]).2.scene.objects.instancesOf "Coin" = [⟨3, 0⟩] ∧
      (collect [⟨2, 0⟩, ⟨1, 0⟩, ⟨0, 0⟩]).2.scene = (collect [⟨2, 0⟩, ⟨0, 0⟩]).2.scene := by
  have hfound : EventTree.findFunction? "Collect" collectTree = some collectFunction := rfl
  have hpassed : ∀ object, collectFunction.passed? (some "Coin") = some object →
      (coinCaller [⟨2, 0⟩, ⟨0, 0⟩]).liveHandles object =
        (coinCaller [⟨2, 0⟩, ⟨1, 0⟩, ⟨0, 0⟩]).liveHandles object := by
    intro object hobject
    cases hobject
    decide
  have hscene : (coinCaller [⟨2, 0⟩, ⟨0, 0⟩]).scene =
      (coinCaller [⟨2, 0⟩, ⟨1, 0⟩, ⟨0, 0⟩]).scene := rfl
  obtain ⟨-, hkept, -, -, hsame⟩ := callFrom_isolated .builtin hfound rfl 64 1 (some "Coin")
    (coinCaller [⟨2, 0⟩, ⟨1, 0⟩, ⟨0, 0⟩])
  refine ⟨hfound, rfl, by decide +kernel, ?_, by decide +kernel, ?_⟩
  · unfold collect
    rw [hkept "Coin"]
    decide
  · unfold collect
    exact (hsame _ hscene hpassed).2.symm

end SceneLogic

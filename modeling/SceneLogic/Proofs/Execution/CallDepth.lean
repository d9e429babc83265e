import SceneLogic.Execution.Builtin
import SceneLogic.Proofs.Execution.Contract
import SceneLogic.Proofs.Execution.Equations
import SceneLogic.Proofs.Execution.Simulation

/-!
# The limit of calls

Calls may nest up to a limit, and a call beyond it ends the run.  The limit does nothing
else: a run that does not meet it is the same under every higher limit.  This is what makes
a call the same as its body in place of the call, where the body stands one level higher.

No instruction ends with the error of the limit, so it comes from calls alone.

## Main definitions

* `ExecutionError.IsDepth` — the error of the limit, whatever the limit is.
* `depthContract` — the contract of runs that name their own limit in it.
* `Instruction.CallsPlainly` — an action that calls a function, without objects.
* `callingEvent`, `inPlaceEvent` — the call of a function, and what it holds in its place.

## Main statements

* `run_eq_of_limit_le` — higher limits change nothing in runs that do not meet the limit.
* `run_call_in_place` — a call of a function does what its body does in place.
-/

namespace SceneLogic

/-- The error of a call that nests too deep. -/
def ExecutionError.IsDepth (error : ExecutionError) : Prop :=
  ∃ limit, error = .callDepthExceeded limit

/-- No single instruction nests calls. -/
theorem Registry.not_isDepth_execute {registry : Registry} {instruction : Instruction}
    {kind : InstructionKind} {context : Context} {error : ExecutionError}
    (h : (registry.execute instruction kind context).1 = .error error) : ¬ error.IsDepth := by
  rintro ⟨limit, rfl⟩
  unfold execute at h
  split at h
  next error hinvalid =>
    cases h
    simp only [validate] at hinvalid
    split at hinvalid
    · cases hinvalid
    · split at hinvalid
      · cases hinvalid
      · split at hinvalid <;> cases hinvalid
  next => cases h
  next => split at h <;> cases h

/-! ## The error of the limit -/

/-- The contract of runs whose error of the limit names this limit. -/
def depthContract (limit : Nat) : Contract where
  later _ _ := True
  fault error := error.IsDepth → error = .callDepthExceeded limit
  asked _ := True

theorem respected_depthContract (limit : Nat) (registry : Registry)
    (uses : List (InstructionKind × Instruction)) :
    (depthContract limit).Respected registry uses where
  refl _ := trivial
  trans _ _ := trivial
  execute _ _ := ⟨trivial, fun _ h hdepth => absurd hdepth (Registry.not_isDepth_execute h)⟩
  truth _ _ _ := fun ⟨_, hdepth⟩ => nomatch hdepth
  call _ _ := trivial

/-- A call that nests too deep is reported with the limit of the run. -/
theorem depth_of_callFrom {registry : Registry} {tree : EventTree} {limit depth : Nat}
    {name : String} {objects : Option String} {context : Context} {error : ExecutionError}
    (h : (callFrom registry tree limit depth name objects context).1 = .error error) :
    error.IsDepth → error = .callDepthExceeded limit := by
  have respected := respected_depthContract limit registry tree.uses
  have hallowed := respected.callFrom (fun _ => rfl)
    (fun _ _ ⟨_, hdepth⟩ => nomatch hdepth) depth name objects context trivial
  exact hallowed.2 error h

theorem depth_of_run {registry : Registry} {tree : EventTree} {limit : Nat} {scene : Scene}
    {error : ExecutionError} (h : (EventTree.run registry limit tree scene).1 = .error error) :
    error.IsDepth → error = .callDepthExceeded limit := by
  have respected := respected_depthContract limit registry tree.uses
  have hallowed := respected.run (fun _ => rfl)
    (fun _ _ ⟨_, hdepth⟩ => nomatch hdepth) scene
  exact hallowed.2 error h

/-! ## Higher limits -/

/-- An outcome that does not end at the limit is the one that follows it exactly. -/
theorem Follows.eq_of_not_depth {α σ : Type} {first second : Except ExecutionError α × σ}
    (h : Follows ExecutionError.IsDepth Eq first second)
    (huncut : ∀ named, first.1 ≠ .error (.callDepthExceeded named)) : second = first := by
  refine (h.eq_of_not_cut ?_).symm
  rintro error herror ⟨named, rfl⟩
  exact huncut named herror

/-- **The limit of calls only cuts runs short.**  The error that tells of calls nested too
deep names the limit of the run.  A run that does not end with it is the same under every
higher limit, with the same result and the same scene; so is a call from outside. -/
theorem run_eq_of_limit_le (registry : Registry) (tree : EventTree) (scene : Scene)
    {limit limit' : Nat} (hlimit : limit ≤ limit') :
    ((∀ named, (EventTree.run registry limit tree scene).1 = .error (.callDepthExceeded named) →
        named = limit) ∧
      ((∀ named, (EventTree.run registry limit tree scene).1 ≠
          .error (.callDepthExceeded named)) →
        EventTree.run registry limit' tree scene = EventTree.run registry limit tree scene)) ∧
    ∀ name,
      (∀ named, (EventTree.callFunction registry limit tree name scene).1 =
        .error (.callDepthExceeded named) → named = limit) ∧
      ((∀ named, (EventTree.callFunction registry limit tree name scene).1 ≠
          .error (.callDepthExceeded named)) →
        EventTree.callFunction registry limit' tree name scene =
          EventTree.callFunction registry limit tree name scene) := by
  have respected := Simulation.respected_exactly ExecutionError.IsDepth registry
  have halike := EventTree.Alike.refl tree
  have hcut : ExecutionError.IsDepth (.callDepthExceeded limit) := ⟨limit, rfl⟩
  refine ⟨⟨fun named h => ?_, ?_⟩, fun name => ⟨fun named h => ?_, ?_⟩⟩
  · cases depth_of_run h ⟨named, rfl⟩
    rfl
  · exact (respected.run halike hlimit (.inl hcut) (Eq.refl scene)).eq_of_not_depth
  · cases depth_of_callFrom h ⟨named, rfl⟩
    rfl
  · exact (respected.callFunction halike hlimit (.inl hcut) name (Eq.refl scene)).eq_of_not_depth

/-- Two functions of which the first calls the second, and an event that calls the first. -/
def relayTree : EventTree :=
  [.branch ⟨false, false⟩ (.function ⟨"First", ""⟩ ⟨[], [⟨callOperation, ["Second"], false⟩]⟩) [],
    .branch ⟨false, false⟩
      (.function ⟨"Second", ""⟩ ⟨[], [⟨"variables/Set", ["done", "true"], false⟩]⟩) [],
    .branch ⟨false, false⟩ (.standard ⟨[], [⟨callOperation, ["First"], false⟩]⟩) []]

/-- Two nested calls meet the limit of one call, and no limit from two calls on. -/
theorem run_eq_of_limit_le_of_relayTree :
    (EventTree.run .builtin 1 relayTree (Scene.named "scene")).1 = .error (.callDepthExceeded 1) ∧
      (EventTree.run .builtin 2 relayTree (Scene.named "scene")).1 = .ok () ∧
      EventTree.run .builtin 64 relayTree (Scene.named "scene") =
        EventTree.run .builtin 2 relayTree (Scene.named "scene") := by
  have hdone : (EventTree.run .builtin 2 relayTree (Scene.named "scene")).1 = .ok () := by
    decide +kernel
  refine ⟨by decide +kernel, hdone, ?_⟩
  have hlimit : 2 ≤ 64 := by decide
  have hsame := run_eq_of_limit_le .builtin relayTree (Scene.named "scene") hlimit
  exact hsame.1.2 fun named h => by rw [hdone] at h; cases h

/-! ## Calls in place -/

/-- An action that calls a function and passes no objects to it. -/
structure Instruction.CallsPlainly (action : Instruction) (name : String) : Prop where
  operation : action.operation = callOperation
  function : action.name? 0 = some name
  objects : ∀ objects, action.name? 1 = some objects → objects = ""
  length_le : action.parameters.length ≤ 2

/-- What is registered last is what runs functions. -/
theorem Registry.get?_builtin_callOperation :
    builtin.get? callOperation = some
      (Builtin.operation .action callOperation "Call function" "Functions"
        "Run a function event, passing it the picked instances of an object"
        [Builtin.required "function", ⟨"objects", true⟩] Builtin.callFunction) := by
  simp only [builtin, Builtin.operations, List.foldl_cons, List.foldl_nil, register]
  exact (NameMap.get?_insert _ _ _ _).trans (if_pos rfl)

/-- The action asks for its function alone, wherever it is carried out. -/
theorem Registry.execute_of_callsPlainly {registry : Registry} {action : Instruction}
    {name : String} (hregistry : registry.get? callOperation = builtin.get? callOperation)
    (haction : action.CallsPlainly name) (context : Context) :
    registry.execute action .action context = (.ok (.call name none), context) := by
  rw [get?_builtin_callOperation] at hregistry
  have hleast : 1 ≤ action.parameters.length := by
    have hname := haction.function
    rw [Instruction.name?, Instruction.parameter?, Option.map_eq_some_iff] at hname
    obtain ⟨_, hparameter, _⟩ := hname
    exact (List.getElem?_eq_some_iff.1 hparameter).1
  have hmost := haction.length_le
  have harity : ¬ (action.parameters.length < 1 ∨ 2 < action.parameters.length) := by omega
  have hvalid : ∃ definition, registry.validate action .action = .ok definition := by
    simp only [validate, definition?, haction.operation, hregistry, Option.map_some]
    exact ⟨_, (if_neg (by decide)).trans (if_neg harity)⟩
  obtain ⟨definition, hvalid⟩ := hvalid
  have hobjects : (action.name? 1).filter (· ≠ "") = none := by
    rw [Option.filter_eq_none_iff]
    intro objects hsome
    simp [haction.objects objects hsome]
  simp only [execute, hvalid, executor?, haction.operation, hregistry, Option.map_some,
    Builtin.operation, Builtin.callFunction, Builtin.withName, haction.function, hobjects]

/-- The event that calls a function, without conditions and sub-events. -/
def callingEvent (folded : Bool) (action : Instruction) : Event :=
  .branch ⟨false, folded⟩ (.standard ⟨[], [action]⟩) []

/-- The event that holds what a function holds. -/
def inPlaceEvent (folded : Bool) (function : Function) : Event :=
  .branch ⟨false, folded⟩ (.standard function.body) function.events

/-- The event that calls a function runs it one level below, from nothing picked. -/
theorem runFrom_callingEvent {registry : Registry} {tree : EventTree} {limit depth : Nat}
    {name : String} {function : Function} {action : Instruction}
    (hregistry : registry.get? callOperation = Registry.builtin.get? callOperation)
    (hfound : EventTree.findFunction? name tree = some function)
    (henabled : function.flags.disabled = false) (haction : action.CallsPlainly name)
    (folded : Bool) (picking : Picking) (scene : Scene) :
    (callingEvent folded action).runFrom registry (callFrom registry tree limit (depth + 1))
        picking scene =
      function.runFrom registry (callFrom registry tree limit depth) ⟨scene, ∅⟩ := by
  have hexecute := Registry.execute_of_callsPlainly hregistry haction ⟨scene, picking⟩
  simp only [callingEvent, Event.runFrom, runBody, conditionsPass, runActions, runAction,
    hexecute, callFrom, hfound, henabled, bindArgument, Bool.false_eq_true, if_false]
  rcases function.runFrom registry (callFrom registry tree limit depth) ⟨scene, ∅⟩ with ⟨_ | _, final⟩
  · rfl
  · rfl

/-- Without a level to go to, the event that calls a function meets the limit. -/
theorem runFrom_callingEvent_zero {registry : Registry} {tree : EventTree} {limit : Nat}
    {name : String} {action : Instruction}
    (hregistry : registry.get? callOperation = Registry.builtin.get? callOperation)
    (haction : action.CallsPlainly name) (folded : Bool) (picking : Picking) (scene : Scene) :
    (callingEvent folded action).runFrom registry (callFrom registry tree limit 0) picking scene =
      (.error (.callDepthExceeded limit), scene) := by
  have hexecute := Registry.execute_of_callsPlainly hregistry haction ⟨scene, picking⟩
  simp only [callingEvent, Event.runFrom, runBody, conditionsPass, runActions, runAction,
    hexecute, callFrom, Bool.false_eq_true, if_false]

/-- Neither event adds a function that could be found. -/
theorem findFunction?_append_callingEvent (tree : EventTree) (folded : Bool)
    (action : Instruction) (name : String) :
    EventTree.findFunction? name (tree ++ [callingEvent folded action]) =
      EventTree.findFunction? name tree := by
  simp [EventTree.findFunction?_eq_find?, EventTree.functions_append, callingEvent,
    EventTree.functions_branch, Event.function?]

theorem findFunction?_append_inPlaceEvent {tree : EventTree} {function : Function}
    (hmem : function ∈ EventTree.functions tree) (folded : Bool) (name : String) :
    EventTree.findFunction? name (tree ++ [inPlaceEvent folded function]) =
      EventTree.findFunction? name tree := by
  have hfunctions : EventTree.functions [inPlaceEvent folded function] =
      EventTree.functions function.events := EventTree.functions_branch _ _ _
  rw [← EventTree.findFunction?_append_events hmem name, EventTree.findFunction?_eq_find?,
    EventTree.findFunction?_eq_find?, EventTree.functions_append, EventTree.functions_append,
    hfunctions]

/-- **Calling a function is running its body in place.**  Take a tree and the first
function of a name in it, which is enabled.  Behind the tree stands an event without
conditions whose single action calls the function, without objects.  If the run does not
end at the limit of calls, then it is the same, with the same result and the same scene,
when the event holds what the function holds instead: its conditions, its actions and its
sub-events.  This holds for all instructions, as long as the one that calls is the
built-in one, in every scene and at every limit. -/
theorem run_call_in_place {registry : Registry} {tree : EventTree} {name : String}
    {function : Function} {action : Instruction}
    (hregistry : registry.get? callOperation = Registry.builtin.get? callOperation)
    (hfound : EventTree.findFunction? name tree = some function)
    (henabled : function.flags.disabled = false) (haction : action.CallsPlainly name)
    (folded folded' : Bool) (limit : Nat) (scene : Scene)
    (huncut : ∀ named, (EventTree.run registry limit
      (tree ++ [callingEvent folded action]) scene).1 ≠ .error (.callDepthExceeded named)) :
    EventTree.run registry limit (tree ++ [inPlaceEvent folded' function]) scene =
      EventTree.run registry limit (tree ++ [callingEvent folded action]) scene := by
  have hmem := EventTree.mem_functions_of_findFunction? hfound
  simp only [EventTree.run, EventTree.runFrom_append, EventTree.runFrom_singleton,
    callFrom_congr registry (findFunction?_append_callingEvent tree folded action),
    callFrom_congr registry (findFunction?_append_inPlaceEvent hmem folded')] at huncut ⊢
  -- Both runs start with the tree itself and make the same calls there.
  generalize EventTree.runFrom registry (callFrom registry tree limit limit) tree ∅ scene = start
    at huncut ⊢
  rcases start with ⟨error | _, middle⟩
  · rfl
  · dsimp only at huncut ⊢
    cases limit with
    | zero =>
      rw [runFrom_callingEvent_zero hregistry haction] at huncut
      exact absurd rfl (huncut 0)
    | succ depth =>
      rw [runFrom_callingEvent hregistry hfound henabled haction] at huncut ⊢
      rw [inPlaceEvent, Event.runFrom_standard]
      -- The body runs one level higher here, so its own calls may nest one level deeper.
      have respected := Simulation.respected_exactly ExecutionError.IsDepth registry
      have hcalls : (Simulation.exactly ExecutionError.IsDepth).FollowsCalls
          (callFrom registry tree (depth + 1) depth)
          (callFrom registry tree (depth + 1) (depth + 1)) :=
        respected.callFrom (.refl tree) (Nat.le_succ depth) (.inl ⟨depth + 1, rfl⟩)
      have hcontexts : (Simulation.exactly ExecutionError.IsDepth).AlikeContexts
          ⟨middle, ∅⟩ ⟨middle, ∅⟩ := ⟨rfl, rfl⟩
      have hfollows := respected.function hcalls (Eq.refl function.body) (.refl function.events)
        hcontexts
      exact hfollows.eq_of_not_depth huncut

/-- A function with a function below it, which it calls. -/
def nestingFunction : Function where
  flags := ⟨false, false⟩
  signature := ⟨"Outer", ""⟩
  body := ⟨[⟨"common/IsTrue", [], false⟩], [⟨callOperation, ["Inner"], false⟩]⟩
  events :=
    [.branch ⟨false, false⟩
      (.function ⟨"Inner", ""⟩ ⟨[], [⟨"variables/Set", ["done", "true"], false⟩]⟩) []]

/-- A tree that holds the function alone. -/
def nestingTree : EventTree :=
  [.branch nestingFunction.flags (.function nestingFunction.signature nestingFunction.body)
    nestingFunction.events]

/-- The body of the function finds the inner function also where it stands in place. -/
theorem run_call_in_place_of_nestingTree :
    EventTree.run .builtin 2 (nestingTree ++ [inPlaceEvent false nestingFunction])
        (Scene.named "scene") =
      EventTree.run .builtin 2
        (nestingTree ++ [callingEvent false ⟨callOperation, ["\"Outer\""], false⟩])
        (Scene.named "scene") ∧
    (EventTree.run .builtin 2 (nestingTree ++ [inPlaceEvent false nestingFunction])
      (Scene.named "scene")).2.valueOf? "done" = some (Expression.resolve "true") := by
  have hcall : Instruction.CallsPlainly ⟨callOperation, ["\"Outer\""], false⟩ "Outer" :=
    ⟨rfl, by decide +kernel, (fun _ h => nomatch h), by decide⟩
  have hrun : (EventTree.run .builtin 2
      (nestingTree ++ [callingEvent false ⟨callOperation, ["\"Outer\""], false⟩])
      (Scene.named "scene")).1 = .ok () := by
    decide +kernel
  have hfound : EventTree.findFunction? "Outer" nestingTree = some nestingFunction := rfl
  have hplace := run_call_in_place rfl hfound rfl hcall false false 2 (Scene.named "scene")
    fun named h => by rw [hrun] at h; cases h
  exact ⟨hplace, by decide +kernel⟩

end SceneLogic

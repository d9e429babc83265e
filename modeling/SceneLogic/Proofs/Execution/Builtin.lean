import SceneLogic.Execution.Builtin

/-!
# What the built-in instructions answer

A built-in instruction that is given the parameters it must have finds all the names
it reads.  It then answers as its kind says, asks for a function only if it is the one
that calls, and fails only over an operator that does not exist.  Whatever it does to
instances, links and variables, it leaves the rest of the scene alone.

## Main definitions

* `Output.Fits` — the outputs that suit a definition.
* `Scene.SameFrame` — what no instruction changes in a scene.
* `Registry.BuiltinStep` — what carrying out a built-in instruction leads to.
* `Registry.Offers` — an operation that a registry holds under an id.

## Main statements

* `Builtin.reliable` — every built-in operation answers so and keeps the frame.
* `Registry.execute_builtin_snd`, `Registry.execute_builtin` — nothing else happens when an
  instruction is carried out.
* `Registry.Offers.execute` — what happens when a given operation is carried out.
-/

namespace SceneLogic

/-! ## The frame of a scene -/

/-- Two scenes that differ at most in instances, links and variables. -/
structure Scene.SameFrame (scene other : Scene) : Prop where
  name : other.name = scene.name
  events : other.events = scene.events
  elapsed : other.elapsed = scene.elapsed
  steps : other.steps = scene.steps

namespace Scene.SameFrame

@[refl] theorem refl (scene : Scene) : scene.SameFrame scene := ⟨rfl, rfl, rfl, rfl⟩

theorem trans {first second third : Scene} (h : first.SameFrame second)
    (hnext : second.SameFrame third) : first.SameFrame third where
  name := hnext.name.trans h.name
  events := hnext.events.trans h.events
  elapsed := hnext.elapsed.trans h.elapsed
  steps := hnext.steps.trans h.steps

/-- A change that keeps the frame keeps it when it is done for one handle after another. -/
theorem forEach {change : Scene → Handle → Scene}
    (h : ∀ (scene : Scene) handle, scene.SameFrame (change scene handle)) (context : Context)
    (handles : List Handle) : context.scene.SameFrame (context.forEach handles change).scene := by
  simp only [Context.forEach, Context.updateScene]
  induction handles generalizing context with
  | nil => exact refl context.scene
  | cons handle rest ih =>
    exact (h context.scene handle).trans (ih { context with scene := change context.scene handle })

theorem joinObjects (scene : Scene) (a b : Option Handle) :
    scene.SameFrame (scene.joinObjects a b) := by
  unfold Scene.joinObjects
  split
  · exact ⟨rfl, rfl, rfl, rfl⟩
  · exact refl scene

theorem partObjects (scene : Scene) (a b : Option Handle) :
    scene.SameFrame (scene.partObjects a b) := by
  unfold Scene.partObjects
  split
  · exact ⟨rfl, rfl, rfl, rfl⟩
  · exact refl scene

end Scene.SameFrame

/-! ## Outputs -/

/-- The outputs that an operation of this definition may give for an instruction. -/
inductive Output.Fits (definition : Definition) (instruction : Instruction) : Output → Prop where
  | done (kind : definition.kind = .action) : Fits definition instruction .done
  | truth (kind : definition.kind = .condition) (holds : Bool) :
    Fits definition instruction (.truth holds)
  | call (kind : definition.kind = .action) (id : definition.id = callOperation) {name : String}
    (named : instruction.name? 0 = some name) (objects : Option String) :
    Fits definition instruction (.call name objects)
  | unknownOperator (id : definition.id = "variables/Compare" ∨ definition.id = "objects/Count")
    {sign : String} (unknown : Comparison.ofSign? sign = none) :
    Fits definition instruction (.failure ("unknown operator " ++ sign))

/-- Given the parameters that it must have, the operation gives an output that suits its
definition, and keeps the frame of the scene. -/
def Operation.Reliable (operation : Operation) : Prop :=
  ∀ instruction context, operation.definition.arity.1 ≤ instruction.parameters.length →
    Output.Fits operation.definition instruction (operation.execute instruction context).1 ∧
      context.scene.SameFrame (operation.execute instruction context).2.scene

/-- A parameter that is there gives a name. -/
theorem Instruction.exists_name? {instruction : Instruction} {index : Nat}
    (h : index < instruction.parameters.length) : ∃ name, instruction.name? index = some name := by
  refine ⟨Expression.resolveName instruction.parameters[index], ?_⟩
  simp [Instruction.name?, Instruction.parameter?, h]

namespace Builtin

variable {definition : Definition} {instruction : Instruction}

/-- What is so before an instruction that reads a name, and after it has gone on with any name,
is so after it: if it lacks the name it has no effect. -/
theorem withName_cases {index : Nat} {what : String} {context : Context}
    {next : String → Output × Context} {motive : Context → Prop} (hcontext : motive context)
    (hnext : ∀ name, motive (next name).2) :
    motive (withName instruction index what context next).2 := by
  simp only [withName]
  split
  next name _ => exact hnext name
  next => exact hcontext

theorem fits_comparison (kind : definition.kind = .condition)
    (id : definition.id = "variables/Compare" ∨ definition.id = "objects/Count")
    (a : Json.Value) (sign : String) (b : Json.Value) :
    Output.Fits definition instruction (comparison a sign b) := by
  unfold comparison
  split
  next holds _ => exact .truth kind holds
  next h => exact .unknownOperator id (Option.map_eq_none_iff.1 h)

/-- The two actions on pairs of instances answer alike, whatever they change. -/
theorem reliable_forEachWith {id name category description : String}
    {change : Scene → Option Handle → Option Handle → Scene} {first second : String}
    (h : ∀ (scene : Scene) a b, scene.SameFrame (change scene a b)) :
    (operation .action id name category description [required first, required second]
      (forEachWith change)).Reliable := by
  intro instruction context least
  have hlength : 2 ≤ instruction.parameters.length := least
  obtain ⟨object, hobject⟩ : ∃ name, instruction.name? 0 = some name :=
    instruction.exists_name? (by omega)
  obtain ⟨other, hother⟩ : ∃ name, instruction.name? 1 = some name :=
    instruction.exists_name? (by omega)
  simp only [operation, forEachWith, withName, hobject, hother]
  exact ⟨.done rfl, .forEach (fun scene handle => h scene (some handle) _) _ _⟩

/-- Every built-in operation is reliable. -/
theorem reliable : ∀ entry ∈ operations, entry.Reliable := by
  simp only [operations, List.forall_mem_cons]
  refine ⟨?isTrue, ?compareVariable, ?variableExists, ?setVariable, ?pickByVariable,
    ?countObjects, ?createObject, ?deleteObjects, ?setObjectVariable, ?pickLinked,
    ?linkObjects, ?unlinkObjects, ?unlinkAllOfObject, ?callFunction, nofun⟩
  case isTrue => exact fun _ context _ => ⟨.truth rfl true, .refl context.scene⟩
  case linkObjects => exact reliable_forEachWith Scene.SameFrame.joinObjects
  case unlinkObjects => exact reliable_forEachWith Scene.SameFrame.partObjects
  all_goals
    intro instruction context least
    obtain ⟨object, hobject⟩ : ∃ name, instruction.name? 0 = some name :=
      instruction.exists_name? (Nat.lt_of_lt_of_le (by decide) least)
  case variableExists =>
    simp only [operation, variableExists, withName, hobject]
    exact ⟨.truth rfl _, .refl _⟩
  case setVariable =>
    simp only [operation, setVariable, withName, hobject]
    exact ⟨.done rfl, rfl, rfl, rfl, rfl⟩
  case createObject =>
    simp only [operation, createObject, withName, hobject]
    exact ⟨.done rfl, rfl, rfl, rfl, rfl⟩
  case deleteObjects =>
    simp only [operation, deleteObjects, withName, hobject]
    refine ⟨.done rfl, Scene.SameFrame.forEach ?_ (context.picked object).2 _⟩
    exact fun _ _ => ⟨rfl, rfl, rfl, rfl⟩
  case unlinkAllOfObject =>
    simp only [operation, unlinkAllOfObject, withName, hobject]
    refine ⟨.done rfl, Scene.SameFrame.forEach ?_ (context.picked object).2 _⟩
    exact fun _ _ => ⟨rfl, rfl, rfl, rfl⟩
  case callFunction =>
    simp only [operation, callFunction, withName, hobject]
    exact ⟨.call rfl rfl hobject _, .refl _⟩
  -- The other five read a second name.
  all_goals
    obtain ⟨second, hsecond⟩ : ∃ name, instruction.name? 1 = some name :=
      instruction.exists_name? (Nat.lt_of_lt_of_le (by decide) least)
  case compareVariable =>
    simp only [operation, compareVariable, withName, hobject, hsecond]
    split
    · exact ⟨.truth rfl false, .refl _⟩
    · exact ⟨fits_comparison rfl (.inl rfl) _ _ _, .refl _⟩
  case pickByVariable =>
    simp only [operation, pickByVariable, withName, hobject, hsecond]
    exact ⟨.truth rfl _, .refl _⟩
  case countObjects =>
    simp only [operation, countObjects, withName, hobject, hsecond]
    exact ⟨fits_comparison rfl (.inr rfl) _ _ _, .refl _⟩
  case setObjectVariable =>
    simp only [operation, setObjectVariable, withName, hobject, hsecond]
    refine ⟨.done rfl, Scene.SameFrame.forEach ?_ (context.picked object).2 _⟩
    exact fun _ _ => ⟨rfl, rfl, rfl, rfl⟩
  case pickLinked =>
    simp only [operation, pickLinked, withName, hobject, hsecond]
    exact ⟨.truth rfl _, .refl _⟩

end Builtin

/-! ## The registry -/

/-- How an output of an operation counts: a failure is an error, any other is an answer. -/
def Output.result (operation : String) : Output → Except ExecutionError Output
  | .failure message => .error (.instructionFailed operation message)
  | output => .ok output

namespace Registry

/-- Operations with different ids are all found after they were registered, each under its own. -/
theorem get?_foldl_register {operations : List Operation}
    (hids : (operations.map (·.definition.id)).Nodup) (registry : Registry) (id : String) :
    (operations.foldl (fun registry operation =>
      registry.register operation.definition operation.execute) registry).get? id =
        (operations.find? (·.definition.id = id)).or (registry.get? id) := by
  induction operations generalizing registry with
  | nil => rfl
  | cons first rest ih =>
    rw [List.map_cons, List.nodup_cons] at hids
    rw [List.foldl_cons, ih hids.2, register, NameMap.get?_insert, List.find?_cons]
    by_cases hid : first.definition.id = id
    · subst hid
      have hrest : rest.find? (·.definition.id = first.definition.id) = none := by
        rw [List.find?_eq_none]
        intro other hmem heq
        exact hids.1 (List.mem_map.2 ⟨other, hmem, of_decide_eq_true heq⟩)
      simp [hrest]
    · simp [hid, Ne.symm hid]

/-- The registry of the built-in operations is their list, looked up by id. -/
theorem get?_builtin (id : String) :
    builtin.get? id = Builtin.operations.find? (·.definition.id = id) :=
  (get?_foldl_register (by decide +kernel) ∅ id).trans Option.or_none

/-- The registry of the built-in operations holds each under its own id and no other. -/
theorem mem_operations_of_get?_builtin {id : String} {operation : Operation}
    (h : builtin.get? id = some operation) :
    operation ∈ Builtin.operations ∧ operation.definition.id = id := by
  rw [get?_builtin] at h
  have hid := List.find?_some h
  exact ⟨List.mem_of_find?_eq_some h, of_decide_eq_true hid⟩

/-- What passes the check names an operation of its kind and has the parameters that
this operation must have. -/
theorem exists_operation_of_validate {registry : Registry} {instruction : Instruction}
    {kind : InstructionKind} {definition : Definition}
    (h : registry.validate instruction kind = .ok definition) :
    ∃ operation, registry.get? instruction.operation = some operation ∧
      operation.definition.kind = kind ∧
      operation.definition.arity.1 ≤ instruction.parameters.length := by
  unfold validate at h
  split at h
  · cases h
  next found hfound =>
    obtain ⟨operation, hget, rfl⟩ := Option.map_eq_some_iff.1 hfound
    dsimp only at h
    split at h
    · cases h
    next hkind =>
      split at h
      · cases h
      next harity => exact ⟨operation, hget, Decidable.not_not.1 hkind, by omega⟩

/-- An instruction that is refused leaves the context as it was; any other leaves what its
operation, which is of its kind, makes of the context. -/
theorem execute_builtin_snd (instruction : Instruction) (kind : InstructionKind)
    (context : Context) :
    (builtin.execute instruction kind context).2 = context ∨
      ∃ operation ∈ Builtin.operations, operation.definition.kind = kind ∧
        (builtin.execute instruction kind context).2 =
          (operation.execute instruction context).2 := by
  unfold execute
  split
  next => exact .inl rfl
  next => exact .inl rfl
  next executor hvalid hexecutor =>
    obtain ⟨operation, hget, hkind, -⟩ := exists_operation_of_validate hvalid
    rw [executor?, hget, Option.map_some, Option.some.injEq] at hexecutor
    subst hexecutor
    refine .inr ⟨operation, (mem_operations_of_get?_builtin hget).1, hkind, ?_⟩
    split
    next heq => rw [heq]
    next heq => rw [heq]

/-- What carrying out a built-in instruction leads to: it is refused by the check, and
nothing happens, or it passes and the answer suits its operation. -/
inductive BuiltinStep (instruction : Instruction) (kind : InstructionKind) (context : Context) :
    Except ExecutionError Output × Context → Prop where
  | refused {error : ExecutionError} (invalid : builtin.validate instruction kind = .error error) :
    BuiltinStep instruction kind context (.error error, context)
  | answered {definition described : Definition} {output : Output} {final : Context}
    (valid : builtin.validate instruction kind = .ok definition)
    (id : described.id = instruction.operation) (ofKind : described.kind = kind)
    (fits : output.Fits described instruction) (frame : context.scene.SameFrame final.scene) :
    BuiltinStep instruction kind context (output.result instruction.operation, final)

theorem execute_builtin (instruction : Instruction) (kind : InstructionKind) (context : Context) :
    BuiltinStep instruction kind context (builtin.execute instruction kind context) := by
  cases hvalid : builtin.validate instruction kind with
  | error error =>
    have heq : builtin.execute instruction kind context = (.error error, context) := by
      simp [execute, hvalid]
    rw [heq]
    exact .refused hvalid
  | ok definition =>
    obtain ⟨operation, hget, hkind, hleast⟩ := exists_operation_of_validate hvalid
    obtain ⟨hmem, hid⟩ := mem_operations_of_get?_builtin hget
    obtain ⟨hfits, hframe⟩ := Builtin.reliable operation hmem instruction context hleast
    have heq : builtin.execute instruction kind context =
        ((operation.execute instruction context).1.result instruction.operation,
          (operation.execute instruction context).2) := by
      simp only [execute, hvalid, executor?, hget, Option.map_some]
      rcases operation.execute instruction context with ⟨output, final⟩
      cases output <;> rfl
    rw [heq]
    exact .answered hvalid hid hkind hfits hframe

/-- Under the id the registry holds an operation of a kind that takes so many parameters, no
more and no fewer, and is carried out by an executor. -/
def Offers (registry : Registry) (id : String) (kind : InstructionKind) (count : Nat)
    (executor : Executor) : Prop :=
  ∃ definition, registry.get? id = some ⟨definition, executor⟩ ∧ definition.kind = kind ∧
    definition.arity = (count, count)

namespace Offers

variable {registry : Registry} {kind : InstructionKind} {count : Nat} {executor : Executor}
  {instruction : Instruction}

/-- The check of an instruction with this id counts its parameters. -/
theorem validate_eq_ok_iff (h : registry.Offers instruction.operation kind count executor) :
    (∃ definition, registry.validate instruction kind = .ok definition) ↔
      instruction.parameters.length = count := by
  obtain ⟨definition, hget, hkind, harity⟩ := h
  simp only [validate, definition?, hget, Option.map_some, hkind, harity, ne_eq,
    not_true_eq_false, if_false]
  split
  next hcount => simp; omega
  next hcount => simp; omega

theorem validate_isOk_iff (h : registry.Offers instruction.operation kind count executor) :
    (registry.validate instruction kind).isOk = true ↔ instruction.parameters.length = count := by
  rw [← h.validate_eq_ok_iff]
  cases registry.validate instruction kind <;> simp [Except.isOk, Except.toBool]

/-- An instruction with this id and the right number of parameters is carried out. -/
theorem execute (h : registry.Offers instruction.operation kind count executor)
    (hcount : instruction.parameters.length = count) (context : Context) :
    registry.execute instruction kind context =
      ((executor instruction context).1.result instruction.operation,
        (executor instruction context).2) := by
  obtain ⟨definition, hvalid⟩ := h.validate_eq_ok_iff.2 hcount
  obtain ⟨_, hget, -, -⟩ := h
  simp only [Registry.execute, hvalid, executor?, hget, Option.map_some]
  rcases executor instruction context with ⟨output, final⟩
  cases output <;> rfl

/-- An action that is done leaves what its executor makes of the context. -/
theorem execute_done (h : registry.Offers instruction.operation kind count executor)
    (hcount : instruction.parameters.length = count) {context after : Context}
    (hdone : executor instruction context = (.done, after)) :
    registry.execute instruction kind context = (.ok .done, after) := by
  rw [h.execute hcount, hdone]
  rfl

end Offers

end Registry

end SceneLogic

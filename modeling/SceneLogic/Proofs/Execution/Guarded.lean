import SceneLogic.Proofs.Execution.Simulation
import SceneLogic.Proofs.Objects.Issued

/-!
# Runs in which handles do not run out

Slots and generations are numbered with 32 bits.  A run says nothing about when one of
these numbers runs out, so a guard is put around every instruction: it looks at the store
before and after, and fails in place of the instruction if the change does not keep handles
apart.  A run that the guard does not stop is the run without it, and in this run every
instruction keeps handles apart.

## Main definitions

* `Registry.guarded` — the registry with the guard around every instruction.
* `ExecutionError.IsRunOut` — the error of the guard.

## Main statements

* `Registry.follows_guarded` — what an instruction does, if the guard does not stop it.
* `run_guarded` — the guard changes nothing in runs that it does not stop.
-/

namespace SceneLogic

/-- What the guard says when a number has run out. -/
def handlesRunOut : String := "handles run out"

/-- Carry out an operation, and fail if that did not keep handles apart. -/
def Operation.guarded (operation : Operation) : Operation where
  definition := operation.definition
  execute instruction context :=
    let outcome := operation.execute instruction context
    if context.scene.objects.KeepsApart outcome.2.scene.objects then outcome
    else (.failure handlesRunOut, outcome.2)

theorem Operation.execute_guarded (operation : Operation) (instruction : Instruction)
    (context : Context) :
    operation.guarded.execute instruction context =
      if context.scene.objects.KeepsApart (operation.execute instruction context).2.scene.objects
      then operation.execute instruction context
      else (.failure handlesRunOut, (operation.execute instruction context).2) := rfl

/-- The error of the guard. -/
def ExecutionError.IsRunOut (error : ExecutionError) : Prop :=
  ∃ operation, error = .instructionFailed operation handlesRunOut

namespace Registry

/-- The registry with the guard around every instruction. -/
def guarded (registry : Registry) : Registry := registry.map Operation.guarded

theorem validate_guarded (registry : Registry) (instruction : Instruction)
    (kind : InstructionKind) :
    registry.guarded.validate instruction kind = registry.validate instruction kind := by
  have hdefinition : registry.guarded.definition? instruction.operation =
      registry.definition? instruction.operation := by
    rw [definition?, definition?, guarded, NameMap.get?_map, Option.map_map]
    rfl
  rw [validate, validate, hdefinition]

/-- An instruction with the guard is followed by the one without it, if what is carried out
is followed as long as it keeps handles apart. -/
theorem follows_guarded {registry : Registry} {related : Context → Context → Prop}
    {instruction : Instruction} {kind : InstructionKind} {first second : Context}
    (hrelated : related first second)
    (hstep : ∀ operation, registry.get? instruction.operation = some operation →
      first.scene.objects.KeepsApart (operation.execute instruction first).2.scene.objects →
      (operation.execute instruction first).1 = (operation.execute instruction second).1 ∧
        related (operation.execute instruction first).2
          (operation.execute instruction second).2) :
    Follows ExecutionError.IsRunOut related (registry.guarded.execute instruction kind first)
      (registry.execute instruction kind second) := by
  rw [execute, execute, validate_guarded]
  simp only [executor?, guarded, NameMap.get?_map, Option.map_map]
  cases registry.validate instruction kind with
  | error error => exact .same hrelated
  | ok definition =>
    cases hget : registry.get? instruction.operation with
    | none => exact .same hrelated
    | some operation =>
      have hcarried := hstep operation hget
      simp only [Option.map_some, Function.comp_apply, Operation.execute_guarded]
      generalize operation.execute instruction first = outcome at hcarried ⊢
      generalize operation.execute instruction second = outcome' at hcarried ⊢
      obtain ⟨output, final⟩ := outcome
      obtain ⟨output', final'⟩ := outcome'
      by_cases hkept : first.scene.objects.KeepsApart final.scene.objects
      · obtain ⟨rfl, hfinal⟩ := hcarried hkept
        simp only [hkept, if_true]
        cases output with
        | failure message => exact .same hfinal
        | done | truth holds | call function objects => exact .same hfinal
      · simp only [hkept, if_false]
        exact .cut ⟨_, rfl⟩

end Registry

/-- The guard changes nothing in runs that it does not stop. -/
theorem run_guarded {registry : Registry} {limit : Nat} {tree : EventTree} {scene : Scene}
    (hunstopped : ∀ error, (EventTree.run registry.guarded limit tree scene).1 = .error error →
      ¬ error.IsRunOut) :
    EventTree.run registry.guarded limit tree scene = EventTree.run registry limit tree scene := by
  have respected : (Simulation.exactly ExecutionError.IsRunOut).Respected registry.guarded
      registry := by
    refine ⟨fun h => congrArg Scene.objects h, fun instruction kind first second h => ?_⟩
    obtain rfl := h.eq
    exact Registry.follows_guarded h fun _ _ _ => ⟨rfl, rfl, rfl⟩
  have hrun := respected.run (.refl tree) (Nat.le_refl limit) (.inr rfl) (Eq.refl scene)
  exact hrun.eq_of_not_cut hunstopped

end SceneLogic

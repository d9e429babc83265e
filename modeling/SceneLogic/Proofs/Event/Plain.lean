import SceneLogic.Proofs.Event.Lookup

/-!
# Trees without presentation

Groups, comments and folding serve those who edit a tree, and a disabled event stays in
the tree for the sake of the functions below it only.  The plain form of a tree leaves
all of this out: enabled groups give way to what they hold, comments and disabled events
without functions are dropped, and nothing is folded.  The functions stay, in plain form
and in the order in which they are looked up.

## Main definitions

* `EventTree.plain` — the plain form of a tree.
* `Event.IsPlain` — an event that serves the run alone.

## Main statements

* `EventTree.isPlain_of_mem_plain` — the plain form has no other events.
* `EventTree.functions_plain`, `EventTree.findFunction?_plain` — its functions.
-/

namespace SceneLogic

mutual

/-- What stands for an event in the plain form of a tree. -/
def Event.plain : Event → List Event
  | .comment _ _ => []
  | .branch flags header events =>
    if flags.disabled = false ∧ header.kind = .group then EventTree.plain events
    else if flags.disabled = true ∧ header.kind ≠ .function ∧
        (EventTree.functions events).isEmpty then []
    else [.branch { flags with folded := false } header (EventTree.plain events)]

/-- The plain form of a tree. -/
def EventTree.plain : List Event → List Event
  | [] => []
  | event :: events => event.plain ++ EventTree.plain events

end

/-- The plain form of a function. -/
def Function.plain (function : Function) : Function :=
  { function with
    flags := { function.flags with folded := false }
    events := EventTree.plain function.events }

/-- An event that serves the run alone: it is unfolded, no comment and no enabled group,
and if it is disabled then it is a function or there is one below it. -/
structure Event.IsPlain (event : Event) : Prop where
  unfolded : event.flags.folded = false
  not_comment : event.kind ≠ .comment
  disabled_of_group : event.kind = .group → event.flags.disabled = true
  functions_ne_nil : event.flags.disabled = true → event.kind ≠ .function →
    EventTree.functions event.children ≠ []

/-! ## The functions of the plain form -/

mutual

theorem Event.functions_plain :
    ∀ event : Event, EventTree.functions event.plain =
      (EventTree.functions [event]).map Function.plain
  | .comment _ _ => rfl
  | .branch flags header events => by
    have ih := EventTree.functions_plain events
    simp only [Event.plain]
    split
    next hgroup =>
      -- Only a function contributes itself to the list of functions.
      rw [EventTree.functions_branch, ih]
      cases header with
      | group info => rfl
      | standard _ | function _ _ => cases hgroup.2
    next =>
      split
      next hdropped =>
        rw [EventTree.functions_branch, List.isEmpty_iff.1 hdropped.2.2]
        cases header with
        | standard body | group info => rfl
        | function signature body => exact absurd rfl hdropped.2.1
      next =>
        rw [EventTree.functions_branch, EventTree.functions_branch, ih, List.map_append]
        cases header <;> rfl

/-- The functions of the plain form are the functions of the tree in plain form. -/
theorem EventTree.functions_plain :
    ∀ events : List Event, EventTree.functions (EventTree.plain events) =
      (EventTree.functions events).map Function.plain
  | [] => rfl
  | event :: events => by
    rw [EventTree.plain, EventTree.functions_append, Event.functions_plain event,
      EventTree.functions_plain events, ← List.map_append, ← EventTree.functions_cons]

end

/-- Looking a function up in the plain form finds the plain form of the same function. -/
theorem EventTree.findFunction?_plain (name : String) (events : List Event) :
    EventTree.findFunction? name (EventTree.plain events) =
      (EventTree.findFunction? name events).map Function.plain := by
  rw [findFunction?_eq_find?, findFunction?_eq_find?, functions_plain, List.find?_map]
  rfl

/-! ## The events of the plain form -/

mutual

theorem Event.isPlain_of_mem_plain {visited : Event} :
    ∀ event : Event, visited ∈ EventTree.visited event.plain → visited.IsPlain
  | .comment _ _, h => by cases h
  | .branch flags header events, h => by
    have ih : visited ∈ EventTree.visited (EventTree.plain events) → visited.IsPlain :=
      EventTree.isPlain_of_mem_plain events
    simp only [Event.plain] at h
    split at h
    next => exact ih h
    next hkept =>
      split at h
      next => cases h
      next hfunctions =>
        rw [EventTree.visited_branch] at h
        rcases List.mem_cons.1 h with rfl | hbelow
        · refine ⟨rfl, ?_, ?_, ?_⟩
          · cases header <;> exact nofun
          · intro hgroup
            exact Bool.of_not_eq_false fun henabled => hkept ⟨henabled, hgroup⟩
          · intro hdisabled hkind hnil
            have hnone : EventTree.functions events = [] := by
              rw [Event.children, EventTree.functions_plain] at hnil
              exact List.map_eq_nil_iff.1 hnil
            exact hfunctions ⟨hdisabled, hkind, List.isEmpty_iff.2 hnone⟩
        · exact ih hbelow

/-- All events of the plain form serve the run alone. -/
theorem EventTree.isPlain_of_mem_plain {visited : Event} :
    ∀ events : List Event, visited ∈ EventTree.visited (EventTree.plain events) →
      visited.IsPlain
  | [], h => by cases h
  | event :: events, h => by
    rw [EventTree.plain, EventTree.visited_append] at h
    rcases List.mem_append.1 h with hfirst | hrest
    · exact Event.isPlain_of_mem_plain event hfirst
    · exact EventTree.isPlain_of_mem_plain events hrest

end

end SceneLogic

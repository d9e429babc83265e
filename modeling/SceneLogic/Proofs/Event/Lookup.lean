import SceneLogic.Proofs.Event.Walk

/-!
# Looking functions up

The functions of a tree are listed along a walk, and a function is looked up by a
recursion of its own that stops at the first match.  Here the list is described by
the parts of the tree, and the look-up is shown to take the first function of the
list that has the name.

## Main statements

* `EventTree.functions_append`, `EventTree.functions_branch` — the list by parts.
* `EventTree.findFunction?_eq_find?` — the look-up takes the first of the list.
* `EventTree.findFunction?_append_events` — the functions below a function add nothing to
  the look-up behind it.
-/

namespace SceneLogic

namespace EventTree

theorem functions_eq (tree : EventTree) :
    tree.functions = tree.visited.filterMap (·.function?) := by
  simp only [functions, visited, List.filterMap_map]
  rfl

@[simp] theorem functions_nil : functions [] = [] := rfl

theorem functions_append (first second : List Event) :
    functions (first ++ second) = functions first ++ functions second := by
  simp only [functions_eq, visited_append, List.filterMap_append]

theorem functions_cons (event : Event) (events : List Event) :
    functions (event :: events) = functions [event] ++ functions events :=
  functions_append [event] events

theorem functions_branch (flags : Flags) (header : Header) (events : List Event) :
    functions [.branch flags header events] =
      (Event.branch flags header events).function?.toList ++ functions events := by
  simp only [functions_eq, visited_branch, List.filterMap_cons]
  cases (Event.branch flags header events).function? <;> rfl

end EventTree

mutual

theorem Event.findFunction?_eq_find? (name : String) :
    ∀ event : Event, event.findFunction? name =
      (EventTree.functions [event]).find? (·.signature.name = name)
  | .comment _ _ => rfl
  | .branch flags header events => by
    rw [EventTree.functions_branch, List.find?_append]
    cases header with
    | standard body | group info =>
      simpa [Event.findFunction?, Event.function?] using
        EventTree.findFunction?_eq_find? name events
    | function signature body =>
      simp only [Event.findFunction?, Event.function?, Option.toList_some, List.find?_cons,
        List.find?_nil]
      by_cases h : signature.name = name
      · simp [h]
      · simpa [h] using EventTree.findFunction?_eq_find? name events

/-- Looking a function up takes the first function of the tree that has the name. -/
theorem EventTree.findFunction?_eq_find? (name : String) :
    ∀ events : List Event, EventTree.findFunction? name events =
      (EventTree.functions events).find? (·.signature.name = name)
  | [] => rfl
  | event :: events => by
    rw [EventTree.functions_cons, List.find?_append, ← Event.findFunction?_eq_find? name event,
      ← EventTree.findFunction?_eq_find? name events]
    simp only [EventTree.findFunction?]
    cases event.findFunction? name <;> rfl

end

/-! ## The functions below a function -/

mutual

theorem Event.functions_subset_of_mem {function : Function} :
    ∀ {event : Event}, function ∈ EventTree.functions [event] →
      EventTree.functions function.events ⊆ EventTree.functions [event]
  | .comment _ _, h => absurd h List.not_mem_nil
  | .branch flags header events, h => by
    rw [EventTree.functions_branch] at h ⊢
    rcases List.mem_append.1 h with hself | hbelow
    · rw [Option.mem_toList] at hself
      have hevents : function.events = events := by
        cases header <;> simp only [Event.function?, reduceCtorEq] at hself
        cases hself
        rfl
      rw [hevents]
      exact List.subset_append_right _ _
    · exact fun inner hinner => List.mem_append_right _
        (EventTree.functions_subset_of_mem hbelow hinner)

/-- The functions below a function of a tree are functions of the tree. -/
theorem EventTree.functions_subset_of_mem {function : Function} :
    ∀ {events : List Event}, function ∈ EventTree.functions events →
      EventTree.functions function.events ⊆ EventTree.functions events
  | [], h => absurd h List.not_mem_nil
  | event :: events, h => by
    rw [EventTree.functions_cons] at h ⊢
    rcases List.mem_append.1 h with hfirst | hrest
    · exact fun inner hinner => List.mem_append_left _
        (Event.functions_subset_of_mem hfirst hinner)
    · exact fun inner hinner => List.mem_append_right _
        (EventTree.functions_subset_of_mem hrest hinner)

end

namespace EventTree

/-- What is found under a name is a function of the tree. -/
theorem mem_functions_of_findFunction? {name : String} {tree : EventTree} {function : Function}
    (h : findFunction? name tree = some function) : function ∈ functions tree := by
  rw [findFunction?_eq_find?] at h
  exact List.mem_of_find?_eq_some h

/-- Behind a tree the sub-events of one of its functions are found by no call: what they
hold is found in the tree before. -/
theorem findFunction?_append_events {tree : EventTree} {function : Function}
    (h : function ∈ functions tree) (name : String) :
    findFunction? name (tree ++ function.events) = findFunction? name tree := by
  simp only [findFunction?_eq_find?, functions_append, List.find?_append]
  cases hfound : (functions tree).find? (·.signature.name = name) with
  | some found => rfl
  | none =>
    rw [List.find?_eq_none] at hfound
    rw [Option.none_or, List.find?_eq_none]
    exact fun inner hinner => hfound inner (functions_subset_of_mem h hinner)

end EventTree

end SceneLogic

import SceneLogic.Proofs.Event.Replacement

/-!
# The paths of a tree

A path of positions leads to an event of a tree.  The paths of a tree are listed here along
the walk: those through the first event, from position zero, and then those through the
others, one position further.

A walk visits one event for each path, as deep as the path is long, in the lexicographic order
of the paths.  So what is collected along a walk is what the paths lead to, and nothing is met
twice, even where events are equal.

## Main definitions

* `EventTree.paths` — the paths of a tree.
* `EventTree.functionAt?`, `EventTree.functionPaths` — the paths that lead to functions.

## Main statements

* `EventTree.forall₂_paths` — the walk visits what the paths lead to.
* `EventTree.pairwise_paths`, `EventTree.mem_paths_iff` — the paths are in order and complete.
* `EventTree.map_functionAt?` — the functions of a tree are those at its paths.
-/

namespace SceneLogic

mutual

/-- The paths from an event to itself and to what is below it. -/
def Event.paths : Event → List (List Nat)
  | .branch _ _ events => [] :: EventTree.paths events
  | .comment _ _ => [[]]

/-- The paths of a tree in the order of the walk. -/
def EventTree.paths : List Event → List (List Nat)
  | [] => []
  | event :: events =>
    event.paths.map (0 :: ·) ++ (EventTree.paths events).map (List.modifyHead (· + 1))

end

namespace EventTree

variable {event : Event} {path : List Nat} {tree : EventTree}

/-! ## Where paths lead -/

/-- A path leads to the same event in another list that has the same first event there. -/
theorem LeadsTo.of_getElem? {index position : Nat} {path : List Nat} {other : EventTree}
    (h : LeadsTo event (index :: path) tree) (hsame : ∀ found, tree[index]? = some found →
      other[position]? = some found) : LeadsTo event (position :: path) other := by
  cases h with
  | here found => exact .here (hsame _ found)
  | inside found rest => exact .inside (hsame _ found) rest

theorem LeadsTo.exists_getElem? {index : Nat}
    (h : LeadsTo event (index :: path) tree) : ∃ found, tree[index]? = some found := by
  cases h with
  | here found => exact ⟨_, found⟩
  | inside found rest => exact ⟨_, found⟩

/-- A path among the sub-events of an event goes on from the path of the event. -/
theorem LeadsTo.of_children {index : Nat} {path : List Nat} {found : Event}
    (hindex : tree[index]? = some event) (h : LeadsTo found path event.children) :
    LeadsTo found (index :: path) tree := by
  obtain ⟨next, inner, rfl⟩ : ∃ next inner, path = next :: inner := by
    cases h <;> exact ⟨_, _, rfl⟩
  cases event with
  | comment flags note =>
    obtain ⟨first, hfirst⟩ := h.exists_getElem?
    cases hfirst
  | branch flags header events => exact .inside hindex h

/-- Behind another event every path starts one position further. -/
theorem LeadsTo.cons (first : Event) (h : LeadsTo event path tree) :
    LeadsTo event (path.modifyHead (· + 1)) (first :: tree) := by
  cases h with
  | here found => exact .here found
  | inside found rest => exact .inside found rest

theorem LeadsTo.eventAt_eq (h : LeadsTo event path tree) : tree.eventAt path = .ok event := by
  induction h with
  | here found => rw [eventAt, found]
  | inside found _ ih =>
    simp only [eventAt, found]
    exact ih

/-- A path of a tree turns off at an event and goes on below it. -/
theorem mem_paths {events : List Event} : path ∈ paths events ↔
    ∃ index inner event, path = index :: inner ∧ events[index]? = some event ∧
      inner ∈ event.paths := by
  induction events generalizing path with
  | nil => simp [paths]
  | cons first events ih =>
    rw [paths, List.mem_append, List.mem_map, List.mem_map]
    constructor
    · rintro (⟨inner, hinner, rfl⟩ | ⟨later, hlater, rfl⟩)
      · exact ⟨0, inner, first, rfl, rfl, hinner⟩
      · obtain ⟨index, inner, event, rfl, hindex, hinner⟩ := ih.1 hlater
        exact ⟨index + 1, inner, event, rfl, hindex, hinner⟩
    · rintro ⟨index, inner, event, rfl, hindex, hinner⟩
      cases index with
      | zero =>
        cases hindex
        exact .inl ⟨inner, hinner, rfl⟩
      | succ index =>
        exact .inr ⟨_, ih.2 ⟨index, inner, event, rfl, hindex, hinner⟩, rfl⟩

theorem LeadsTo.mem_paths (h : LeadsTo event path tree) : path ∈ paths tree := by
  induction h with
  | @here index tree found =>
    refine EventTree.mem_paths.2 ⟨index, [], event, rfl, found, ?_⟩
    cases event <;> simp [Event.paths]
  | inside found _ ih =>
    exact EventTree.mem_paths.2 ⟨_, _, _, rfl, found, List.mem_cons_of_mem _ ih⟩

end EventTree

/-! ## The walk along the paths -/

mutual

-- Below an event it is not known at which position of a tree the event is, so its paths are
-- followed from all of them.
theorem Event.forall₂_paths (depth : Nat) : ∀ event : Event,
    List.Forall₂ (fun path entry => entry.1 = depth + path.length ∧
      ∀ (tree : EventTree) (index : Nat), tree[index]? = some event →
        EventTree.LeadsTo entry.2 (index :: path) tree) event.paths (event.walkFrom depth)
  | .comment _ _ => .cons ⟨rfl, fun _ _ => .here⟩ .nil
  | .branch flags header events => by
    refine .cons ⟨rfl, fun _ _ => .here⟩ ?_
    refine (EventTree.forall₂_paths (depth + 1) events).imp fun path entry ⟨hdepth, hpath⟩ => ?_
    exact ⟨by omega, fun tree index hindex => hpath.of_children hindex⟩

/-- A walk visits the events that the paths of the tree lead to, as deep as the paths are
long. -/
theorem EventTree.forall₂_paths (depth : Nat) : ∀ events : List Event,
    List.Forall₂ (fun path entry => entry.1 + 1 = depth + path.length ∧
      EventTree.LeadsTo entry.2 path events) (EventTree.paths events)
      (EventTree.walkFrom depth events)
  | [] => .nil
  | event :: events => by
    refine List.rel_append ?_ ?_
    · rw [List.forall₂_map_left_iff]
      refine (Event.forall₂_paths depth event).imp fun path entry ⟨hdepth, hpath⟩ => ?_
      exact ⟨by rw [hdepth, List.length_cons, Nat.add_assoc], hpath _ 0 rfl⟩
    · rw [List.forall₂_map_left_iff]
      refine (EventTree.forall₂_paths depth events).imp fun path entry ⟨hdepth, hpath⟩ => ?_
      exact ⟨by rw [List.length_modifyHead, hdepth], hpath.cons event⟩

end

/-! ## Order -/

mutual

theorem Event.pairwise_paths : ∀ event : Event, event.paths.Pairwise (· < ·)
  | .comment _ _ => List.pairwise_singleton _ _
  | .branch flags header events => by
    refine .cons (fun path hpath => ?_) (EventTree.pairwise_paths events)
    obtain ⟨index, inner, -, rfl, -⟩ := EventTree.mem_paths.1 hpath
    exact List.nil_lt_cons _ _

/-- The paths of a tree are in lexicographic order. -/
theorem EventTree.pairwise_paths : ∀ events : List Event,
    (EventTree.paths events).Pairwise (· < ·)
  | [] => .nil
  | event :: events => by
    rw [EventTree.paths, List.pairwise_append, List.pairwise_map, List.pairwise_map]
    refine ⟨?_, ?_, ?_⟩
    · refine (Event.pairwise_paths event).imp fun hlt => ?_
      exact List.cons_lt_cons_iff.2 (.inr ⟨rfl, hlt⟩)
    · refine (EventTree.pairwise_paths events).imp_of_mem fun hpath hother hlt => ?_
      obtain ⟨index, inner, -, rfl, -⟩ := EventTree.mem_paths.1 hpath
      obtain ⟨position, rest, -, rfl, -⟩ := EventTree.mem_paths.1 hother
      refine List.cons_lt_cons_iff.2 ((List.cons_lt_cons_iff.1 hlt).imp Nat.succ_lt_succ ?_)
      exact And.imp_left (congrArg Nat.succ)
    · intro path hpath other hother
      obtain ⟨inner, -, rfl⟩ := List.mem_map.1 hpath
      obtain ⟨later, hlater, rfl⟩ := List.mem_map.1 hother
      obtain ⟨index, rest, -, rfl, -⟩ := EventTree.mem_paths.1 hlater
      exact List.cons_lt_cons_iff.2 (.inl (Nat.succ_pos index))

end

namespace EventTree

variable {path : List Nat} {tree : EventTree}

theorem map_eventAt_paths (tree : EventTree) :
    (paths tree).map tree.eventAt = tree.walk.map (.ok ·.2) := by
  rw [← List.forall₂_eq_eq_eq, List.forall₂_map_left_iff, List.forall₂_map_right_iff]
  exact (forall₂_paths 0 tree).imp fun path entry ⟨_, hpath⟩ => hpath.eventAt_eq

/-- The paths of a tree are those that lead to an event. -/
theorem mem_paths_iff : path ∈ paths tree ↔ ∃ event, tree.eventAt path = .ok event := by
  constructor
  · intro hpath
    have hevent := List.mem_map_of_mem (f := tree.eventAt) hpath
    rw [map_eventAt_paths] at hevent
    obtain ⟨entry, -, hentry⟩ := List.mem_map.1 hevent
    exact ⟨entry.2, hentry.symm⟩
  · rintro ⟨event, hevent⟩
    exact (leadsTo_of_eventAt hevent).mem_paths

/-! ## Functions -/

/-- The function that a path leads to, if the event there is one. -/
def functionAt? (tree : EventTree) (path : List Nat) : Option Function :=
  (tree.eventAt path).toOption.bind (·.function?)

/-- The paths of a tree that lead to functions. -/
def functionPaths (tree : EventTree) : List (List Nat) :=
  (paths tree).filter fun path => (tree.functionAt? path).isSome

theorem functionAt?_eq_some {function : Function} : tree.functionAt? path = some function ↔
    ∃ event, tree.eventAt path = .ok event ∧ event.function? = some function := by
  rw [functionAt?]
  cases tree.eventAt path with
  | ok event => simp [Except.toOption]
  | error error => simp [Except.toOption]

theorem pairwise_functionPaths (tree : EventTree) : tree.functionPaths.Pairwise (· < ·) :=
  (pairwise_paths tree).filter _

theorem mem_functionPaths :
    path ∈ tree.functionPaths ↔ ∃ function, tree.functionAt? path = some function := by
  rw [functionPaths, List.mem_filter, Option.isSome_iff_exists, and_iff_right_iff_imp]
  rintro ⟨function, hfunction⟩
  obtain ⟨event, hevent, -⟩ := functionAt?_eq_some.1 hfunction
  exact mem_paths_iff.2 ⟨event, hevent⟩

/-- The functions of a tree are those that its paths lead to, in the order of the paths. -/
theorem map_functionAt? (tree : EventTree) :
    tree.functionPaths.map tree.functionAt? = (functions tree).map some := by
  have hwalk : (paths tree).map tree.functionAt? = tree.walk.map (·.2.function?) := by
    have hevents := congrArg (List.map fun found => found.toOption.bind (·.function?))
      (map_eventAt_paths tree)
    rwa [List.map_map, List.map_map] at hevents
  calc tree.functionPaths.map tree.functionAt?
    _ = ((paths tree).map tree.functionAt?).filter (·.isSome) := by
      rw [List.filter_map]
      rfl
    _ = (tree.walk.map (·.2.function?)).filter (·.isSome) := by rw [hwalk]
    _ = (functions tree).map some := List.map_filterMap_some_eq_filter_map_isSome.symm

end EventTree

end SceneLogic

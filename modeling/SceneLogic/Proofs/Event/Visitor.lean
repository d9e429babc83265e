import SceneLogic.Proofs.Event.Editing
import SceneLogic.Proofs.Event.Paths

/-!
# Visiting the events of a tree

A visitor is shown the events of a tree one after the other, with their depths, and may keep a
state.  Before the sub-events of an event are shown the event is asked whether it can have any,
so the question for them, which is an error for an event of another kind, is never in vain.

What a visitor makes of a tree is what it makes of the walk.  The walk shows the event at each
path of the tree once, in lexicographic order of the paths and as deep as the path is long.  So
the number of events is the number of paths, and edits of lists add and subtract it, at any place
in a tree.

## Main definitions

* `EventTree.visit` — show the events of a tree to a visitor.
* `EventTree.CountAdds` — how the number of events goes with edits.

## Main statements

* `EventTree.visit_eq` — a visitor sees the walk.
* `EventTree.count_setTreeAt` — the number of events when a tree within is replaced.
* `EventTree.walk_enumerates_paths` — visitors, paths and numbers together.
-/

namespace SceneLogic

/-! ## Visitors -/

/-- Only an event with something in it has sub-events. -/
theorem Event.sizeOf_subEvents_lt {event : Event} {inner : List Event}
    (h : event.subEvents = .ok inner) : sizeOf inner < sizeOf event := by
  cases event with
  | comment flags note => cases h
  | branch flags header events =>
    obtain rfl : events = inner := Except.ok.inj h
    simp only [Event.branch.sizeOf_spec]
    omega

namespace EventTree

universe u

variable {σ : Type u} (visitor : Nat → Event → σ → σ)

/-- Show events of some depth to a visitor, each before its sub-events.  This ends with an error
if an event is asked for sub-events in vain. -/
def visitFrom (depth : Nat) : List Event → σ → Except EditError σ
  | [], state => .ok state
  | event :: events, state =>
    if event.canHaveSubEvents then
      match _hinner : event.subEvents with
      | .error error => .error error
      | .ok inner =>
        match visitFrom (depth + 1) inner (visitor depth event state) with
        | .error error => .error error
        | .ok next => visitFrom depth events next
    else visitFrom depth events (visitor depth event state)
termination_by events => sizeOf events
decreasing_by
  all_goals simp only [List.cons.sizeOf_spec]
  · have hlt := Event.sizeOf_subEvents_lt _hinner
    omega
  · omega
  · omega

/-- Show the events of a tree to a visitor. -/
def visit (tree : EventTree) (state : σ) : Except EditError σ := visitFrom visitor 0 tree state

/-- What a visitor makes of events that it is shown with their depths. -/
def shown (entries : List (Nat × Event)) (state : σ) : σ :=
  entries.foldl (fun state entry => visitor entry.1 entry.2 state) state

theorem shown_append (first second : List (Nat × Event)) (state : σ) :
    shown visitor (first ++ second) state = shown visitor second (shown visitor first state) :=
  List.foldl_append

/-- A visitor is shown the walk, by induction on the events and on those below them. -/
theorem visitFrom_eq (depth : Nat) : ∀ (events : List Event) (state : σ),
    visitFrom visitor depth events state = .ok (shown visitor (walkFrom depth events) state)
  | [], state => by
    rw [visitFrom]
    rfl
  | .comment flags note :: events, state => by
    rw [visitFrom, if_neg nofun, visitFrom_eq depth events]
    rfl
  | .branch flags header inner :: events, state => by
    have hable : (Event.branch flags header inner).canHaveSubEvents = true := rfl
    rw [visitFrom, if_pos hable]
    split
    next error hrefused => cases hrefused
    next found hfound =>
      obtain rfl : inner = found := Except.ok.inj hfound
      rw [visitFrom_eq (depth + 1) inner]
      dsimp only
      rw [visitFrom_eq depth events, ← shown_append]
      rfl

/-- **A visitor is shown the walk**, and no event is asked for sub-events in vain. -/
theorem visit_eq (tree : EventTree) (state : σ) :
    tree.visit visitor state = .ok (shown visitor tree.walk state) :=
  visitFrom_eq visitor 0 tree state

/-! ## Numbers of events -/

/-- The number of events when the event at a position is changed. -/
theorem count_modify {tree : EventTree} {index : Nat} {event : Event}
    (h : tree[index]? = some event) (change : Event → Event) :
    count (tree.modify index change) + count [event] = tree.count + count [change event] := by
  induction tree generalizing index with
  | nil => cases h
  | cons first rest ih =>
    cases index with
    | zero =>
      cases h
      change count (change event :: rest) + count [event] = _
      rw [count_cons event rest, count_cons (change event) rest]
      omega
    | succ index =>
      change count (first :: rest.modify index change) + count [event] = _
      have hrest := ih h
      rw [count_cons first rest, count_cons first (rest.modify index change)]
      omega

/-- The number of events when the tree that a path leads to is replaced, by induction on the
path. -/
theorem count_setTreeAt {tree inner : EventTree} {path : List Nat}
    (h : tree.treeAt path = .ok inner) (replacement : EventTree) :
    count (tree.setTreeAt path replacement) + inner.count = tree.count + replacement.count := by
  induction path generalizing tree with
  | nil =>
    obtain rfl : tree = inner := Except.ok.inj h
    rw [setTreeAt, Nat.add_comm]
  | cons index path ih =>
    simp only [treeAt] at h
    split at h
    · cases h
    next event hevent =>
      cases event with
      | comment flags note => cases h
      | branch flags header events =>
        have hbelow : count (setTreeAt events path replacement) + inner.count =
          count events + replacement.count := ih h
        have hmodify := count_modify hevent fun event =>
          event.withChildren (setTreeAt event.children path replacement)
        rw [Event.withChildren, Event.children, count_branch, count_branch] at hmodify
        rw [setTreeAt]
        omega

/-- The number of events when an event is moved from a place in one tree to a place in another. -/
theorem count_transferAt {tree other left grown : EventTree} {path otherPath : List Nat}
    {origin target : Nat}
    (h : tree.transferAt path origin other otherPath target = .ok (left, grown)) :
    left.count + grown.count = tree.count + other.count := by
  simp only [transferAt, bind, Except.bind, pure, Except.pure] at h
  split at h
  · cases h
  next source hsource =>
    split at h
    · cases h
    next goal hgoal =>
      split at h
      · cases h
      next lists htransfer =>
        obtain ⟨rest, longer⟩ := lists
        simp only [Except.ok.injEq, Prod.mk.injEq] at h
        obtain ⟨rfl, rfl⟩ := h
        obtain ⟨event, hrest, hlonger⟩ := transfer_eq_ok_iff.1 htransfer
        have hleft := count_setTreeAt hsource rest
        have hgrown := count_setTreeAt hgoal longer
        rw [hrest.count_eq] at hleft
        rw [hlonger.count_eq] at hgrown
        omega

/-- How the number of events goes with edits of a tree. -/
structure CountAdds (tree : EventTree) : Prop where
  push : ∀ event, count (tree ++ [event]) = tree.count + count [event]
  insert : ∀ index event longer, insertAt tree index event = .ok longer →
    count longer = tree.count + count [event]
  remove : ∀ index event rest, removeAt tree index = .ok (event, rest) →
    count rest + count [event] = tree.count
  move : ∀ origin target moved, moveItem tree origin target = .ok moved →
    count moved = tree.count
  transfer : ∀ origin other target rest longer,
    SceneLogic.transfer tree origin other target = .ok (rest, longer) →
      count rest + count longer = tree.count + count other
  replaceWithin : ∀ path inner replacement, tree.treeAt path = .ok inner →
    count (tree.setTreeAt path replacement) + count inner = tree.count + count replacement
  transferWithin : ∀ path origin other otherPath target left grown,
    tree.transferAt path origin other otherPath target = .ok (left, grown) →
      count left + count grown = tree.count + count other

theorem countAdds (tree : EventTree) : tree.CountAdds where
  push event := count_append tree [event]
  insert index event longer h := by
    rw [(insertAt_eq_ok_iff.1 h).count_eq, Nat.add_comm]
  remove index event rest h := by
    rw [(removeAt_eq_ok_iff.1 h).count_eq, Nat.add_comm]
  move origin target moved h := by
    obtain ⟨event, rest, hrest, hmoved⟩ := moveItem_eq_ok_iff.1 h
    rw [hrest.count_eq, hmoved.count_eq]
  transfer origin other target rest longer h := by
    obtain ⟨event, hrest, hlonger⟩ := transfer_eq_ok_iff.1 h
    rw [hrest.count_eq, hlonger.count_eq]
    omega
  replaceWithin path inner replacement h := count_setTreeAt h replacement
  transferWithin path origin other otherPath target left grown := count_transferAt

/-! ## The walk -/

/-- **The walk enumerates the paths of a tree.**  A visitor makes of a tree what it makes of the
walk, without an error, whatever it keeps.  The paths that lead to an event stand in lexicographic
order, each once, and the walk shows for each of them the event that it leads to, one less deep
than the path is long.  So there are as many events as paths, and their number adds up when
events are pushed, inserted, removed or moved, in the tree or at any place in it. -/
theorem walk_enumerates_paths (tree : EventTree) :
    (∀ {σ : Type u} (visitor : Nat → Event → σ → σ) (state : σ),
      tree.visit visitor state = .ok (shown visitor tree.walk state)) ∧
    (∃ paths : List (List Nat), paths.Pairwise (· < ·) ∧
      (∀ path, path ∈ paths ↔ ∃ event, tree.eventAt path = .ok event) ∧
      List.Forall₂ (fun path entry => entry.1 + 1 = path.length ∧
        tree.eventAt path = .ok entry.2) paths tree.walk ∧
      tree.count = paths.length) ∧
    tree.CountAdds := by
  have hwalk : List.Forall₂ (fun path entry => entry.1 + 1 = path.length ∧
      tree.eventAt path = .ok entry.2) (paths tree) tree.walk :=
    (forall₂_paths 0 tree).imp fun path entry ⟨hdepth, hpath⟩ =>
      ⟨by rw [hdepth, Nat.zero_add], hpath.eventAt_eq⟩
  refine ⟨fun visitor state => visit_eq visitor tree state,
    ⟨paths tree, pairwise_paths tree, fun path => mem_paths_iff, hwalk, ?_⟩, countAdds tree⟩
  exact hwalk.length_eq.symm

/-- A visitor that notes the depths is shown a group, the comment in it and a comment behind it.
Without the group two events are gone. -/
theorem walk_enumerates_paths_of_doorGroup :
    EventTree.visit (fun depth _ depths => depths ++ [depth]) [doorGroup, blankNote] [] =
        .ok [0, 1, 0] ∧
      count [blankNote] + count [doorGroup] = count [doorGroup, blankNote] ∧
      count (EventTree.setTreeAt [doorGroup, blankNote] [0] [blankNote, blankNote]) + 1 =
        count [doorGroup, blankNote] + 2 := by
  obtain ⟨hvisit, -, hadds⟩ := walk_enumerates_paths [doorGroup, blankNote]
  exact ⟨hvisit _ _, hadds.remove 0 doorGroup [blankNote] rfl,
    hadds.replaceWithin [0] doorGroup.children [blankNote, blankNote] rfl⟩

end EventTree

end SceneLogic

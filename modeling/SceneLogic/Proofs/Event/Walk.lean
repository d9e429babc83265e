import SceneLogic.Event.Tree

/-!
# The events that a walk visits

A walk reports each event with its depth, and starts one level deeper below an event.
For what is collected from the events the depths do not matter, so here they are
dropped: the events of a tree are those of its parts, one part after the other.

## Main definitions

* `EventTree.visited` — the events of a tree in the order of the walk.

## Main statements

* `EventTree.visited_append`, `EventTree.visited_branch` — the events by parts.
* `EventTree.count_cons`, `EventTree.count_append`, `EventTree.count_branch` — their number by
  parts.
-/

namespace SceneLogic

/-- The events of a tree in the order of the walk, without their depths. -/
def EventTree.visited (tree : EventTree) : List Event := tree.walk.map (·.2)

mutual

theorem Event.map_snd_walkFrom (depth other : Nat) :
    ∀ event : Event, (event.walkFrom depth).map (·.2) = (event.walkFrom other).map (·.2)
  | .branch flags header events => by
    simp only [Event.walkFrom, List.map_cons]
    rw [EventTree.map_snd_walkFrom (depth + 1) (other + 1) events]
  | .comment _ _ => rfl

/-- The depth at which a walk starts changes the depths that it reports, not the events. -/
theorem EventTree.map_snd_walkFrom (depth other : Nat) :
    ∀ events : List Event, (EventTree.walkFrom depth events).map (·.2) =
      (EventTree.walkFrom other events).map (·.2)
  | [] => rfl
  | event :: events => by
    simp only [EventTree.walkFrom, List.map_append]
    rw [Event.map_snd_walkFrom depth other event, EventTree.map_snd_walkFrom depth other events]

end

namespace EventTree

theorem visited_cons (event : Event) (events : List Event) :
    visited (event :: events) = visited [event] ++ visited events := by
  simp [visited, walk, walkFrom]

theorem visited_append (first second : List Event) :
    visited (first ++ second) = visited first ++ visited second := by
  induction first with
  | nil => rfl
  | cons event rest ih =>
    rw [List.cons_append, visited_cons, ih, ← List.append_assoc, ← visited_cons]

@[simp] theorem visited_branch (flags : Flags) (header : Header) (events : List Event) :
    visited [.branch flags header events] = .branch flags header events :: visited events := by
  simp only [visited, walk, walkFrom, Event.walkFrom, List.append_nil, List.map_cons]
  rw [map_snd_walkFrom (0 + 1) 0 events]

theorem count_eq_length_visited (tree : EventTree) : tree.count = tree.visited.length := by
  rw [visited, List.length_map, count]

theorem count_append (first second : EventTree) :
    count (first ++ second) = first.count + second.count := by
  simp only [count_eq_length_visited, visited_append, List.length_append]

theorem count_cons (event : Event) (events : List Event) :
    count (event :: events) = count [event] + count events :=
  count_append [event] events

theorem count_branch (flags : Flags) (header : Header) (events : EventTree) :
    count [.branch flags header events] = events.count + 1 := by
  rw [count_eq_length_visited, visited_branch, List.length_cons, count_eq_length_visited]

end EventTree

end SceneLogic

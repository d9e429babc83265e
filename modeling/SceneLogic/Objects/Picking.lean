import SceneLogic.Objects.Store

/-!
# Picking

While an event runs, it has picked some instances of each object that was
mentioned so far: a list of handles for each such name.  The first mention of an
object picks all of its instances.

## Main definitions

* `Picking` — the lists of picked handles by name.
* `Picking.ensure`, `Picking.picked` — the list of a name, filled on first mention.
* `Picking.keepIf`, `Picking.retainLive` — narrowing all lists.
-/

namespace SceneLogic

/-- The lists of picked handles by name. -/
abbrev Picking := NameMap (List Handle)

namespace Picking

/-- The list of a name, which is filled with all instances of the object if it was
not mentioned before. -/
def ensure (picking : Picking) (name : String) (store : Store) : List Handle × Picking :=
  match picking.get? name with
  | some handles => (handles, picking)
  | none => (store.instancesOf name, picking.insert name (store.instancesOf name))

/-- The live handles of a name.  The list keeps only them. -/
def picked (picking : Picking) (name : String) (store : Store) : List Handle × Picking :=
  let (handles, picking) := picking.ensure name store
  let live := handles.filter store.isAlive
  (live, picking.insert name live)

/-- The first live handle of a name. -/
def firstPicked? (picking : Picking) (name : String) (store : Store) : Option Handle × Picking :=
  let (handles, picking) := picking.picked name store
  (handles.head?, picking)

/-- Pick an instance that was just created.  The first mention of an object picks
nothing else here. -/
def addCreated (picking : Picking) (name : String) (handle : Handle) : Picking :=
  picking.insert name ((picking.get? name).getD [] ++ [handle])

/-- Whether any handle is picked under any name. -/
def anyPicked (picking : Picking) : Bool := picking.values.any fun handles => !handles.isEmpty

/-- The number of picked handles under all names. -/
def count (picking : Picking) : Nat := picking.values.flatten.length

/-- Keep the handles that pass a test, under every name. -/
def keepIf (picking : Picking) (test : Handle → Bool) : Picking := picking.map (·.filter test)

/-- Keep the live handles, under every name. -/
def retainLive (picking : Picking) (store : Store) : Picking := picking.keepIf store.isAlive

/-- The lists of some names and the lists of all others. -/
def splitOff (picking : Picking) (names : List String) : Picking × Picking :=
  names.foldl
    (fun (part, rest) name =>
      match rest.get? name with
      | some handles => (part.insert name handles, rest.erase name)
      | none => (part, rest))
    (∅, picking)

end Picking

end SceneLogic

import SceneLogic.Toml.Value

/-!
# Building tables

A document is a sequence of headers and of keys with values, and each of them adds
to a tree of tables.  A table can come about in three ways: by a header of its own,
because a longer header implies it, or by a dotted key.  What may still be added to
a table depends on how it came about, and nothing is ever defined twice.

## Main definitions

* `Entry` — what a key stands for while the tree is built.
* `Entry.descend` — change the table that a path leads to.
* `Entry.insertValue`, `Entry.openTable`, `Entry.openRow` — the three additions.
* `Entry.toValue` — the value in the end.
-/

namespace SceneLogic.Toml

/-- How a table came about. -/
inductive Origin where
  | header
  | implied
  | dotted
deriving DecidableEq, Repr

/-- What a key stands for: a value, a table that may still grow, or the tables of a
repeated header, of which the last may still grow. -/
inductive Entry where
  | leaf (value : Value)
  | table (origin : Origin) (members : List (String × Entry))
  | tables (rows : List (List (String × Entry)))

instance : Inhabited Entry := ⟨.table .header []⟩

namespace Entry

/-- The keys of a table with what they stand for. -/
abbrev Members := List (String × Entry)

mutual

/-- The value in the end. -/
def toValue : Entry → Value
  | .leaf value => value
  | .table _ members => .table (memberValues members)
  | .tables rows => .array (rowValues rows)

/-- The members of a table in the end. -/
def memberValues : List (String × Entry) → List (String × Value)
  | [] => []
  | (key, entry) :: members => (key, entry.toValue) :: memberValues members

/-- The tables of a repeated header in the end. -/
def rowValues : List (List (String × Entry)) → List Value
  | [] => []
  | row :: rows => .table (memberValues row) :: rowValues rows

end

/-- Replace what a key stands for. -/
def setMember (members : Members) (key : String) (entry : Entry) : Members :=
  members.map fun member => if member.1 = key then (key, entry) else member

/-- Change the table that a path leads to from a table, creating the tables on the
way.  Of a repeated header the last table counts.  The path of a dotted key may not
lead through a table that has a header of its own. -/
def descend (dotted : Bool) (change : Origin → Members → Option Members) (path : List String)
    (origin : Origin) (members : Members) : Option Members :=
  match path with
  | [] => change origin members
  | key :: path =>
    match members.lookup key with
    | none => do
      let created : Origin := if dotted then .dotted else .implied
      let inner ← descend dotted change path created []
      return members ++ [(key, .table created inner)]
    | some (.leaf _) => none
    | some (.table kept inner) =>
      if dotted ∧ kept = .header then none
      else do
        let inner ← descend dotted change path kept inner
        return setMember members key (.table kept inner)
    | some (.tables rows) =>
      match rows.reverse with
      | [] => none
      | last :: earlier => do
        let last ← descend dotted change path .header last
        return setMember members key (.tables (earlier.reverse ++ [last]))

/-- Add a value under a dotted key.  The key must be new, and a table that is not
the starting point must have come about by dotted keys only. -/
def insertValue (path : List String) (key : String) (value : Value) (members : Members) :
    Option Members :=
  descend true
    (fun origin members =>
      if decide (origin = .dotted) = path.isEmpty then none
      else if (members.lookup key).isSome then none
      else some (members ++ [(key, .leaf value)]))
    path .header members

/-- Add the table of a header.  It may have been implied before. -/
def openTable (path : List String) (key : String) (members : Members) : Option Members :=
  descend false
    (fun _ members =>
      match members.lookup key with
      | none => some (members ++ [(key, .table .header [])])
      | some (.table .implied inner) => some (setMember members key (.table .header inner))
      | some _ => none)
    path .header members

/-- Add a table of a repeated header. -/
def openRow (path : List String) (key : String) (members : Members) : Option Members :=
  descend false
    (fun _ members =>
      match members.lookup key with
      | none => some (members ++ [(key, .tables [[]])])
      | some (.tables rows) => some (setMember members key (.tables (rows ++ [[]])))
      | some _ => none)
    path .header members

/-- Add a value under a dotted key of the table that the last header opened. -/
def insertBelow (header path : List String) (key : String) (value : Value) (members : Members) :
    Option Members :=
  descend false (fun _ members => insertValue path key value members) header .header members

end Entry

end SceneLogic.Toml

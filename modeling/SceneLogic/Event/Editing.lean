import SceneLogic.Event.Basic

/-!
# Editing lists of events and instructions

Trees and instruction lists are edited by position.  Every operation checks its
positions first and changes nothing when one is out of range.

## Main definitions

* `insertAt`, `removeAt`, `moveItem`, `transfer` — the operations on lists.
* `Event.insertInstruction`, `Event.removeInstruction` — the same in an event.
-/

namespace SceneLogic

/-- Insert an item at a position, which may be just behind the last item. -/
def insertAt (list : List α) (index : Nat) (item : α) : Except EditError (List α) :=
  if index ≤ list.length then .ok (list.insertIdx index item)
  else .error (.indexOutOfRange index list.length)

/-- Take the item out of a position. -/
def removeAt (list : List α) (index : Nat) : Except EditError (α × List α) :=
  if h : index < list.length then .ok (list[index], list.eraseIdx index)
  else .error (.indexOutOfRange index list.length)

/-- Move the item of one position to another, at which it is afterwards. -/
def moveItem (list : List α) (origin target : Nat) : Except EditError (List α) :=
  if h : origin < list.length then
    if target < list.length then .ok ((list.eraseIdx origin).insertIdx target list[origin])
    else .error (.indexOutOfRange target list.length)
  else .error (.indexOutOfRange origin list.length)

/-- Move an item into another list; both lists are returned.  The position in the
other list is checked first. -/
def transfer (source : List α) (origin : Nat) (other : List α) (target : Nat) :
    Except EditError (List α × List α) :=
  if target ≤ other.length then do
    let (item, source) ← removeAt source origin
    return (source, other.insertIdx target item)
  else .error (.indexOutOfRange target other.length)

namespace Event

/-- The list of instructions of a use. -/
def instructions (event : Event) : InstructionKind → Except EditError (List Instruction)
  | .condition => event.conditions
  | .action => event.actions

/-- Replace the instructions of a use; an event without them does not change. -/
def withInstructions (event : Event) (kind : InstructionKind) (list : List Instruction) : Event :=
  match event.body? with
  | some body =>
    event.withBody <|
      match kind with
      | .condition => { body with conditions := list }
      | .action => { body with actions := list }
  | none => event

/-- Insert a condition or an action at a position. -/
def insertInstruction (event : Event) (kind : InstructionKind) (index : Nat)
    (instruction : Instruction) : Except EditError Event := do
  let list ← event.instructions kind
  let list ← insertAt list index instruction
  return event.withInstructions kind list

/-- Take the condition or action out of a position. -/
def removeInstruction (event : Event) (kind : InstructionKind) (index : Nat) :
    Except EditError (Instruction × Event) := do
  let list ← event.instructions kind
  let (instruction, list) ← removeAt list index
  return (instruction, event.withInstructions kind list)

end Event

end SceneLogic

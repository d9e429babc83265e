import SceneLogic.Event.Basic
import SceneLogic.Json.Parser
import SceneLogic.Json.Printer
import SceneLogic.Json.Record

/-!
# Events as documents

An event is written as a record with its kind under the key `type`, the fields of
the kind after it.  A field that has the value it would have anyway is left out
where noted below.

Reading is strict about what an event does (its instructions, its sub-events, the
name of a function) and lenient about how it is shown: a mark, a color or a text
that is not of its kind takes the value it has when it is missing.  At the top of a
tree the kind is given by name; inside another event its number does as well.

## Main definitions

* `Instruction.toDocument`, `Instruction.ofDocument?`
* `Event.toDocument`, `Event.ofDocument?`
* `EventTree.toDocument`, `EventTree.ofDocument?`
-/

namespace SceneLogic

open Json

/-! ## Instructions -/

namespace Instruction

/-- The fields of an instruction, in order. -/
def fields : List String := ["type", "parameters", "inverted"]

/-- An instruction as a document; `inverted` is left out when it is false. -/
def toDocument (instruction : Instruction) : Document :=
  .object <|
    ("type", .string instruction.operation) ::
    ("parameters", .array (instruction.parameters.map .string)) ::
    Document.member instruction.inverted "inverted" (.bool true)

/-- The instruction that a document gives. -/
def ofDocument? (document : Document) : Option Instruction := do
  let record ← Record.read? fields document
  return {
    operation := ← record.required "type" Document.string?
    parameters := ← record.optional "parameters" (Document.list? Document.string?) []
    inverted := ← record.lenient "inverted" Document.bool? false }

/-- The instruction that a text gives. -/
def parse? (text : String) : Option Instruction := do
  ofDocument? (← Document.parse? text)

end Instruction

/-! ## Parts of events -/

namespace Color

/-- A color as a document. -/
def toDocument (color : Color) : Document :=
  .object [("r", .ofNat color.red.toNat), ("g", .ofNat color.green.toNat),
    ("b", .ofNat color.blue.toNat)]

/-- The color that a document gives; all three components are needed. -/
def ofDocument? (document : Document) : Option Color := do
  let record ← Record.read? ["r", "g", "b"] document
  let component := fun name => record.required name (Document.natBelow? UInt8.size)
  return {
    red := UInt8.ofNat (← component "r")
    green := UInt8.ofNat (← component "g")
    blue := UInt8.ofNat (← component "b") }

end Color

namespace Flags

/-- The marks that an event has, as members. -/
def toMembers (flags : Flags) : List (String × Document) :=
  Document.member flags.disabled "disabled" (.bool true) ++
    Document.member flags.folded "folded" (.bool true)

/-- The marks that a record gives. -/
def ofRecord? (record : Record) : Option Flags := do
  return {
    disabled := ← record.lenient "disabled" Document.bool? false
    folded := ← record.lenient "folded" Document.bool? false }

end Flags

namespace Body

/-- The conditions and actions of an event, as members. -/
def toMembers (body : Body) : List (String × Document) :=
  [("conditions", .array (body.conditions.map Instruction.toDocument)),
    ("actions", .array (body.actions.map Instruction.toDocument))]

/-- The conditions and actions that a record gives. -/
def ofRecord? (record : Record) : Option Body := do
  let instructions := fun name => record.optional name (Document.list? Instruction.ofDocument?) []
  return { conditions := ← instructions "conditions", actions := ← instructions "actions" }

end Body

namespace GroupInfo

/-- What is known of a group, as members; what is not known is left out. -/
def toMembers (info : GroupInfo) : List (String × Document) :=
  ("name", .string info.name) ::
    Document.member (info.source ≠ "") "source" (.string info.source) ++
    Document.member (info.creationTime ≠ 0) "creationTime" (.ofNat info.creationTime.toNat) ++
    Document.member (!info.parameters.isEmpty) "parameters"
      (.array (info.parameters.map .string)) ++
    [("color", info.color.toDocument)]

/-- What a record says of a group. -/
def ofRecord? (record : Record) : Option GroupInfo := do
  return {
    name := ← record.lenient "name" Document.string? ""
    source := ← record.lenient "source" Document.string? ""
    creationTime :=
      UInt32.ofNat (← record.lenient "creationTime" (Document.natBelow? UInt32.size) 0)
    parameters := ← record.lenient "parameters" (Document.list? Document.string?) []
    color := ← record.lenient "color" Color.ofDocument? .group }

end GroupInfo

namespace Signature

/-- The names of a function, as members. -/
def toMembers (signature : Signature) : List (String × Document) :=
  [("name", .string signature.name), ("objectsPassedAsArgument", .string signature.argument)]

/-- The names that a record gives. -/
def ofRecord? (record : Record) : Option Signature := do
  return {
    name := ← record.optional "name" Document.string? ""
    argument := ← record.lenient "objectsPassedAsArgument" Document.string? "" }

end Signature

namespace Note

/-- The content of a comment, as members. -/
def toMembers (note : Note) : List (String × Document) :=
  [("text", .string note.text), ("color", note.color.toDocument),
    ("textColor", note.textColor.toDocument)]

/-- The content that a record gives. -/
def ofRecord? (record : Record) : Option Note := do
  return {
    text := ← record.lenient "text" Document.string? ""
    color := ← record.lenient "color" Color.ofDocument? .comment
    textColor := ← record.lenient "textColor" Color.ofDocument? .commentText }

end Note

namespace EventKind

/-- The kinds in the order of their numbers. -/
def all : List EventKind := [.standard, .group, .function, .comment]

/-- The kind that a tag gives: by name or, where numbers are admitted, by number. -/
def ofTag? (numbered : Bool) : Document → Option EventKind
  | .string name => all.find? fun kind => kind.name = name
  | tag => if numbered then (tag.natBelow? all.length).bind (all[·]?) else none

/-- The fields of the events of a kind, in order. -/
def fields : EventKind → List String
  | .standard => ["disabled", "folded", "conditions", "actions", "events"]
  | .group =>
    ["disabled", "folded", "name", "source", "creationTime", "parameters", "color", "events"]
  | .function =>
    ["disabled", "folded", "name", "objectsPassedAsArgument", "conditions", "actions", "events"]
  | .comment => ["disabled", "folded", "text", "color", "textColor"]

end EventKind

/-! ## Events -/

namespace Header

/-- What an event with sub-events is, as members. -/
def toMembers : Header → List (String × Document)
  | .standard body => body.toMembers
  | .group info => info.toMembers
  | .function signature body => signature.toMembers ++ body.toMembers

/-- Whether sub-events are written even if there are none. -/
def alwaysWritesEvents : Header → Bool
  | .group _ => true
  | _ => false

/-- The members of an event with this header, its tag apart. -/
def branchMembers (header : Header) (flags : Flags) (events : List Document) :
    List (String × Document) :=
  flags.toMembers ++ header.toMembers ++
    Document.member (header.alwaysWritesEvents || !events.isEmpty) "events" (.array events)

end Header

mutual

/-- An event as a document. -/
def Event.toDocument : Event → Document
  | .branch flags header events =>
    .object (("type", .string header.kind.name) ::
      header.branchMembers flags (Event.toDocuments events))
  | .comment flags note =>
    .object (("type", .string EventKind.comment.name) :: flags.toMembers ++ note.toMembers)

/-- Events as documents. -/
def Event.toDocuments : List Event → List Document
  | [] => []
  | event :: events => event.toDocument :: Event.toDocuments events

end

/-- A function event as a document, without the tag that says what it is. -/
def Function.toDocument (function : Function) : Document :=
  .object <|
    (Header.function function.signature function.body).branchMembers function.flags
      (Event.toDocuments function.events)

/-- A tree as a document. -/
def EventTree.toDocument (tree : EventTree) : Document := .array (Event.toDocuments tree)

namespace Event

/-- The event that a readable document gives, with its sub-events up to a depth.
`numbered` says whether a number can stand for its kind. -/
def read? (depth : Nat) (numbered : Bool) (document : Document) : Option Event :=
  match depth with
  | 0 => none
  | depth + 1 => do
    let (tag, document) ← document.tagged? "type"
    let kind ← EventKind.ofTag? numbered tag
    let record ← Record.read? kind.fields document
    let flags ← Flags.ofRecord? record
    match kind with
    | .comment => return .comment flags (← Note.ofRecord? record)
    | .standard =>
      return .branch flags (.standard (← Body.ofRecord? record))
        (← record.optional "events" (Document.list? (read? depth true)) [])
    | .group =>
      return .branch flags (.group (← GroupInfo.ofRecord? record))
        (← record.optional "events" (Document.list? (read? depth true)) [])
    | .function =>
      return .branch flags (.function (← Signature.ofRecord? record) (← Body.ofRecord? record))
        (← record.optional "events" (Document.list? (read? depth true)) [])

/-- The event that a document gives.  Every event nests its sub-events in a
container of its own, so the depth of the document bounds that of the event. -/
def ofDocument? (document : Document) : Option Event :=
  if document.readable then read? document.depth false document else none

end Event

/-- The tree that a document gives. -/
def EventTree.ofDocument? (document : Document) : Option EventTree :=
  document.list? Event.ofDocument?

end SceneLogic

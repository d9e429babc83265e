import SceneLogic.Event.Codec
import SceneLogic.Event.Symbol
import SceneLogic.Event.Tree
import SceneLogic.Instance

/-!
# Layouts

A layout is the definition of a scene: its name, the variables and instances it
starts with, and the events that run at every step.  Layouts are kept as JSON
texts; variables and instances are left out of the text when there are none.

## Main definitions

* `Layout` — the definition of a scene.
* `Layout.ofText?`, `Layout.toText` — reading and writing.
* `Layout.findFunction?`, `Layout.functionSymbols` — the functions of a layout.
-/

namespace SceneLogic

open Json

namespace Instance

/-- An instance as a document. -/
def toDocument (self : Instance) : Document :=
  .object <|
    ("object", .string self.object) ::
    Document.member (!self.bindings.isEmpty) "variables" (.ofValueMap self.bindings)

/-- The instance that a document gives. -/
def ofDocument? (document : Document) : Option Instance := do
  let record ← Record.read? ["object", "variables"] document
  return {
    object := ← record.required "object" Document.string?
    bindings := ← record.optional "variables" Document.valueMap? ∅ }

end Instance

/-- The definition of a scene. -/
structure Layout where
  name : String
  bindings : NameMap Value
  instances : List Instance
  events : EventTree
deriving DecidableEq

namespace Layout

/-- The fields of a layout, in order. -/
def fields : List String := ["name", "variables", "instances", "events"]

/-- A layout as a document. -/
def toDocument (layout : Layout) : Document :=
  .object <|
    ("name", .string layout.name) ::
    Document.member (!layout.bindings.isEmpty) "variables" (.ofValueMap layout.bindings) ++
    Document.member (!layout.instances.isEmpty) "instances"
      (.array (layout.instances.map Instance.toDocument)) ++
    [("events", EventTree.toDocument layout.events)]

/-- The layout that a document gives. -/
def ofDocument? (document : Document) : Option Layout := do
  let record ← Record.read? fields document
  return {
    name := ← record.required "name" Document.string?
    bindings := ← record.optional "variables" Document.valueMap? ∅
    instances := ← record.optional "instances" (Document.list? Instance.ofDocument?) []
    events := ← record.optional "events" EventTree.ofDocument? [] }

/-- The text of a layout, one item to a line. -/
def toText (layout : Layout) : String := layout.toDocument.pretty

/-- The layout that a text gives. -/
def ofText? (text : String) : Option Layout := do
  ofDocument? (← Document.parse? text)

/-- The first function of a name in the events of a layout. -/
def findFunction? (layout : Layout) (name : String) : Option Function :=
  EventTree.findFunction? name layout.events

/-- The names of the functions of a layout with their symbols, in the order of the walk. -/
def functionSymbols (layout : Layout) : List (String × String) :=
  (EventTree.functions layout.events).map fun function =>
    (function.signature.name, functionSymbol layout.name function.signature.name)

end Layout

end SceneLogic

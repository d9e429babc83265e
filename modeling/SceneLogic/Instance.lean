import SceneLogic.Json.Document

/-!
# Object instances

An instance belongs to an object, by name, and has variables of its own.
-/

namespace SceneLogic

open Json

/-- An instance of an object. -/
structure Instance where
  object : String
  bindings : NameMap Value
deriving DecidableEq

namespace Instance

/-- An instance without variables. -/
def ofObject (object : String) : Instance := ⟨object, ∅⟩

/-- Set a variable of an instance. -/
def setVariable (self : Instance) (name : String) (value : Value) : Instance :=
  { self with bindings := self.bindings.insert name value }

end Instance

end SceneLogic

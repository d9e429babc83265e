import SceneLogic.Json.Document
import SceneLogic.Number.Seconds
import SceneLogic.Toml.Parser

/-!
# Manifests

The manifest of a project names the project and says how its scenes are run.  It is
written in TOML, in the tables `project` and `runtime`; the second may be missing.

## Main definitions

* `Manifest` — what a manifest says.
* `Manifest.ofText?` — reading it.
* `Manifest.toDocument` — what it says, as a JSON document.
-/

namespace SceneLogic

/-- What a manifest says.  Without a first scene the first by name counts. -/
structure Manifest where
  id : String
  name : String
  version : String
  description : Option String
  firstScene : Option String
  steps : UInt32
  timeStep : Seconds
deriving DecidableEq

namespace Manifest

/-- What a manifest says of how scenes are run: the number of steps and the time of
each. -/
abbrev Pace := UInt32 × Seconds

/-- One step of a sixtieth of a second. -/
def defaultPace : Pace := (1, Seconds.sixtieth)

/-- The pace that a value gives. -/
def pace? (value : Toml.Value) : Option Pace := do
  let fields ← Toml.Fields.ofValue? value
  let steps ← fields.optional "steps" 0 (Toml.Value.natBelow? UInt32.size) 1
  let timeStep ← fields.optional "time_step" 1 Toml.Value.number? Seconds.sixtieth
  return (UInt32.ofNat steps, timeStep)

/-- The manifest that the members of a TOML document give. -/
def ofMembers? (members : List (String × Toml.Value)) : Option Manifest := do
  let (steps, timeStep) ← (Toml.Fields.named members).optional "runtime" 1 pace? defaultPace
  let fields ← Toml.Fields.ofValue? (← members.lookup "project")
  return {
    id := ← fields.required "id" 0 Toml.Value.string?
    name := ← fields.required "name" 1 Toml.Value.string?
    version := ← fields.optional "version" 2 Toml.Value.string? "1.0.0"
    description := ← fields.possible "description" 3 Toml.Value.string?
    firstScene := ← fields.possible "first_scene" 4 Toml.Value.string?
    steps, timeStep }

/-- The manifest that a text gives. -/
def ofText? (text : String) : Option Manifest := do
  ofMembers? (← Toml.Document.parse? text)

open Json

/-- A string that may be missing, as a document. -/
def optionalText : Option String → Document
  | some text => .string text
  | none => .null

/-- What a manifest says, as a document. -/
def toDocument (manifest : Manifest) : Document :=
  .object
    [("project", .object
        [("id", .string manifest.id), ("name", .string manifest.name),
          ("version", .string manifest.version),
          ("description", optionalText manifest.description),
          ("first_scene", optionalText manifest.firstScene)]),
      ("runtime", .object
        [("steps", .ofNat manifest.steps.toNat),
          ("time_step", (manifest.timeStep.map fun x => .number (.float x)).getD .null)])]

end Manifest

end SceneLogic

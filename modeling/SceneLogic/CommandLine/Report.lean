import SceneLogic.Project.Basic
import SceneLogic.Text.Digits

/-!
# Reports of errors

A report says what failed and then, from the outside in, what caused it.  A single
cause is indented; several are numbered from zero.  The later lines of a cause are
indented as far as its first.

## Main definitions

* `Report` — a message with its causes; `Report.text`.
* `LoadError.causes` — why a project cannot be loaded.
-/

namespace SceneLogic

/-- A message with its causes. -/
structure Report where
  message : String
  causes : List String
deriving DecidableEq, Repr

namespace Report

/-- A text whose lines after the first are indented. -/
def indentLines (width : Nat) (text : String) : List Char :=
  text.toList.flatMap fun c => if c = '\n' then '\n' :: List.replicate width ' ' else [c]

/-- A number in a column of five places. -/
def column (n : Nat) : List Char :=
  let digits := natText n
  List.replicate (5 - digits.length) ' ' ++ digits

/-- The lines of the causes. -/
def causeText (causes : List String) : List Char :=
  match causes with
  | [] => []
  | [cause] => '\n' :: List.replicate 4 ' ' ++ indentLines 4 cause
  | causes =>
    causes.zipIdx.flatMap fun (cause, number) =>
      '\n' :: column number ++ [':', ' '] ++ indentLines 7 cause

/-- The text of a report. -/
def text (report : Report) : String :=
  "Error: " ++ report.message ++
    (if report.causes.isEmpty then "" else "\n\nCaused by:") ++
    String.ofList (causeText report.causes) ++ "\n"

end Report

/-- Why the project at a path cannot be loaded, from the outside in. -/
def LoadError.causes (error : LoadError) (path : String) : List String :=
  match error with
  | .pathNotFound => ["Project path does not exist: " ++ path]
  | .manifestNotFound =>
    ["Project manifest not found: " ++ Path.join path Project.manifestName]
  | .inaccessible error => ["Failed to read file: " ++ error.message, error.message]
  | .malformedManifest =>
    ["Failed to parse TOML: the manifest is malformed", "the manifest is malformed"]
  | .malformedScene =>
    ["Failed to parse JSON: the scene is malformed", "the scene is malformed"]

/-- The report on a project that cannot be loaded. -/
def LoadError.report (error : LoadError) (path : String) : Report :=
  ⟨"Failed to load project from " ++ path, error.causes path⟩

end SceneLogic

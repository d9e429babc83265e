import SceneLogic.CommandLine.Help
import SceneLogic.CommandLine.Report
import SceneLogic.Execution.Builtin
import SceneLogic.Execution.Host

/-!
# Responses to commands

What the program prints for a request and with which code it ends: 0 when all went
well, 1 with a report when something failed, 2 for a misused command line.

## Main definitions

* `Response` — code and printed texts.
* `Command.perform` — what a command does with a project.
* `respond` — the response to the words of a command line.
-/

namespace SceneLogic

open Json

/-- The code with which the program ends, and what it prints. -/
structure Response where
  code : Nat
  output : String
  errors : String
deriving DecidableEq, Repr

namespace Response

/-- All went well. -/
def success (output : String) : Response := ⟨0, output, ""⟩

/-- Something failed after some output. -/
def failure (output : String) (report : Report) : Response := ⟨1, output, report.text⟩

end Response

/-- The wording of an error. -/
def StepError.message : StepError → String
  | .notRunning => "Scene not running"
  | .failed error => error.message

/-- Run the scene of a layout and print its variables. -/
def runLayout (timeStep : Seconds) (steps : UInt32) (layout : Layout) : Response :=
  let (id, host) := (Host.new .builtin timeStep).start (.ofLayout layout)
  match host.steps id steps.toNat with
  | (.error error, _) =>
    .failure "" ⟨"Scene " ++ layout.name ++ " failed", [error.message]⟩
  | (.ok (), host) =>
    match host.scene? id with
    | some scene => .success ((Document.ofValueMap scene.bindings).pretty ++ "\n")
    | none => .failure "" ⟨"Scene " ++ layout.name ++ " vanished", []⟩

/-- What a check of a layout prints, given the errors that were found. -/
def checkLines (name : String) (layout : Layout) (errors : List ExecutionError) : List String :=
  match errors with
  | [] => [s!"{name}: ok ({EventTree.count layout.events} events)"]
  | errors => errors.map fun error => name ++ ": " ++ error.message

/-- Check all layouts of a project. -/
def checkProject (project : Project) : Response :=
  let checks := project.scenes.entries.map fun (name, layout) =>
    (name, layout, Registry.builtin.validateEvents layout.events)
  let output := linesText (checks.flatMap fun (name, layout, errors) => checkLines name layout errors)
  let problems := checks.flatMap (·.2.2)
  if problems.isEmpty then .success output
  else .failure output ⟨s!"{problems.length} problems found", []⟩

/-- List the functions of all layouts of a project. -/
def listFunctions (project : Project) : Response :=
  .success <| linesText <|
    project.scenes.entries.flatMap fun (scene, layout) =>
      layout.functionSymbols.map fun (name, symbol) => scene ++ "\t" ++ name ++ "\t" ++ symbol

/-- What a command does with a project. -/
def Command.perform (command : Command) (project : Project) : Response :=
  match command with
  | .run scene steps =>
    let run := runLayout project.manifest.timeStep (steps.getD project.manifest.steps)
    match scene with
    | some name =>
      match project.scene? name with
      | some layout => run layout
      | none => .failure "" ⟨"Scene not found: " ++ name, []⟩
    | none =>
      match project.firstScene? with
      | some layout => run layout
      | none => .failure "" ⟨"Project has no scene to run", []⟩
  | .check => checkProject project
  | .functions => listFunctions project

/-- The response to the words of a command line, given what is found at a path. -/
def respond (words : List String) (find : String → Source) : Response :=
  match Request.ofWords words with
  | .help topic => .success topic.text
  | .misuse => ⟨2, "", misuseText⟩
  | .command path command =>
    match Project.load (find path) with
    | .error error => .failure "" (error.report path)
    | .ok project => command.perform project

end SceneLogic

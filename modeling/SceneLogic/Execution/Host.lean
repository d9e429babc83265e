import SceneLogic.Execution.Run

/-!
# Running scenes

A host runs any number of scenes against one registry.  Each scene that is started
gets an id that no scene had before.  A step drops the links of destroyed instances,
runs the events of the scene once and, when that succeeds, counts the step.

## Main definitions

* `Host` — the scenes in progress, in the order in which they were started.
* `Host.start`, `Host.stop`, `Host.step`, `Host.stepAll`.
-/

namespace SceneLogic

/-- Why a step cannot be made. -/
inductive StepError where
  | notRunning
  | failed (error : ExecutionError)
deriving DecidableEq, Repr

/-- The name of a scene in progress. -/
abbrev SceneId := Nat

/-- Scenes in progress.  `nextId` is above every id in use. -/
structure Host where
  registry : Registry
  timeStep : Seconds
  scenes : List (SceneId × Scene)
  nextId : SceneId

namespace Host

/-- A host without scenes. -/
def new (registry : Registry) (timeStep : Seconds) : Host := ⟨registry, timeStep, [], 0⟩

/-- Start a scene. -/
def start (host : Host) (scene : Scene) : SceneId × Host :=
  (host.nextId,
    { host with scenes := host.scenes ++ [(host.nextId, scene)], nextId := host.nextId + 1 })

/-- The scene with an id. -/
def scene? (host : Host) (id : SceneId) : Option Scene := host.scenes.lookup id

/-- The ids in use, in the order in which the scenes were started. -/
def ids (host : Host) : List SceneId := host.scenes.map (·.1)

/-- Discard a scene. -/
def stop (host : Host) (id : SceneId) : Option Scene × Host :=
  (host.scene? id, { host with scenes := host.scenes.filter (·.1 ≠ id) })

/-- Replace the scene with an id. -/
def setScene (host : Host) (id : SceneId) (scene : Scene) : Host :=
  { host with
    scenes := host.scenes.map fun entry => if entry.1 = id then (id, scene) else entry }

end Host

/-- One step of a scene: its links are pruned, its events run, and the step counts if
they succeed. -/
def Scene.step (registry : Registry) (timeStep : Seconds) (scene : Scene) :
    Except ExecutionError Unit × Scene :=
  match EventTree.run registry defaultCallLimit scene.events scene.pruneLinks with
  | (.ok (), scene) => (.ok (), scene.advance timeStep)
  | (.error error, scene) => (.error error, scene)

namespace Host

/-- One step of the scene with an id. -/
def step (host : Host) (id : SceneId) : Except StepError Unit × Host :=
  match host.scene? id with
  | none => (.error .notRunning, host)
  | some scene =>
    let (result, scene) := scene.step host.registry host.timeStep
    (result.mapError .failed, host.setScene id scene)

/-- One step after another, up to the first that fails. -/
def stepIds (host : Host) : List SceneId → Except StepError Unit × Host
  | [] => (.ok (), host)
  | id :: ids =>
    match host.step id with
    | (.ok (), host) => host.stepIds ids
    | (.error error, host) => (.error error, host)

/-- One step of every scene, in the order in which they were started. -/
def stepAll (host : Host) : Except StepError Unit × Host := host.stepIds host.ids

/-- A number of steps of the scene with an id, up to the first that fails. -/
def steps (host : Host) (id : SceneId) : Nat → Except StepError Unit × Host
  | 0 => (.ok (), host)
  | count + 1 =>
    match host.step id with
    | (.ok (), host) => host.steps id count
    | (.error error, host) => (.error error, host)

end Host

end SceneLogic

import SceneLogic.Layout
import SceneLogic.Number.Seconds
import SceneLogic.Objects.Links
import SceneLogic.Objects.Picking

/-!
# Scenes

A scene in progress holds its instances, the links between them, its variables,
the events that drive it, and the time and the number of steps it has run so far.

The link tools of a scene take handles that may be missing and then do nothing.

## Main definitions

* `Scene` — a scene in progress; `Scene.named` and `Scene.ofLayout` start one.
* `Scene.createObject`, `Scene.deleteObject` — its instances.
* `Scene.linkedWith` — the live instances linked with one.
* `Scene.joinObjects`, `Scene.partObjects`, `Scene.isolateObject`, `Scene.pickLinked`
  — the link tools.
-/

namespace SceneLogic

open Json

/-- A scene in progress.

The number of steps has no bound.  A counter of 64 bits tells the same number as long as
fewer than `2 ^ 64` steps are made; more steps are out of scope. -/
structure Scene where
  name : String
  events : EventTree
  objects : Store
  links : Links
  bindings : NameMap Value
  elapsed : Seconds
  steps : Nat
deriving DecidableEq

namespace Scene

/-- A scene without content. -/
def named (name : String) : Scene :=
  { name, events := [], objects := ∅, links := ∅, bindings := ∅, elapsed := .zero, steps := 0 }

/-- The scene that a layout defines, before its first step. -/
def ofLayout (layout : Layout) : Scene :=
  { named layout.name with
    events := layout.events
    bindings := layout.bindings
    objects := layout.instances.foldl (fun objects item => (objects.insert item).2) ∅ }

/-- Count a completed step of a duration.  The count does not wrap: `2 ^ 64` steps are out of
scope. -/
def advance (scene : Scene) (duration : Seconds) : Scene :=
  { scene with elapsed := scene.elapsed.add duration, steps := scene.steps + 1 }

/-- The value of a variable. -/
def valueOf? (scene : Scene) (name : String) : Option Value := scene.bindings.get? name

/-- Set a variable. -/
def setVariable (scene : Scene) (name : String) (value : Value) : Scene :=
  { scene with bindings := scene.bindings.insert name value }

/-- Put an instance into the scene. -/
def insertObject (scene : Scene) (item : Instance) : Handle × Scene :=
  let (handle, objects) := scene.objects.insert item
  (handle, { scene with objects })

/-- Create an instance of an object. -/
def createObject (scene : Scene) (object : String) : Handle × Scene :=
  scene.insertObject (.ofObject object)

/-- Destroy an instance, after removing its links.  The answer is whether the handle
named one; a handle that names none loses its links all the same. -/
def deleteObject (scene : Scene) (handle : Handle) : Bool × Scene :=
  (scene.objects.isAlive handle,
    { scene with
      links := scene.links.unlinkAll handle
      objects := (scene.objects.destroy handle).2 })

/-- The live handles linked with a live handle; a dead one is linked with none. -/
def linkedWith (scene : Scene) (handle : Handle) : List Handle :=
  if scene.objects.isAlive handle then
    (scene.links.partners handle).filter scene.objects.isAlive
  else []

/-- Drop the links of handles that name no instance. -/
def pruneLinks (scene : Scene) : Scene :=
  { scene with links := scene.links.prune scene.objects }

/-! ## Link tools -/

/-- The handle, if it is given and names an instance. -/
def live? (scene : Scene) (handle : Option Handle) : Option Handle :=
  handle.filter scene.objects.isAlive

/-- Link two live instances. -/
def joinObjects (scene : Scene) (a b : Option Handle) : Scene :=
  match scene.live? a, scene.live? b with
  | some a, some b => { scene with links := scene.links.link a b }
  | _, _ => scene

/-- Remove the link between two handles. -/
def partObjects (scene : Scene) (a b : Option Handle) : Scene :=
  match a, b with
  | some a, some b => { scene with links := scene.links.unlink a b }
  | _, _ => scene

/-- Remove every link of a handle. -/
def isolateObject (scene : Scene) (handle : Option Handle) : Scene :=
  match handle with
  | some handle => { scene with links := scene.links.unlinkAll handle }
  | none => scene

/-- Keep, in every list of a picking, the handles linked with a live one.  The answer
is whether any handle is left; without a live handle it is false and the picking stays. -/
def pickLinked (scene : Scene) (picking : Picking) (handle : Option Handle) : Bool × Picking :=
  match scene.live? handle with
  | none => (false, picking)
  | some handle =>
    let picking := picking.keepIf (scene.linkedWith handle).contains
    (picking.anyPicked, picking)

end Scene

end SceneLogic

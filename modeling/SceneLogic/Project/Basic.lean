import SceneLogic.Layout
import SceneLogic.Project.Manifest
import SceneLogic.Project.Path

/-!
# Projects

A project is a directory with a manifest and a directory of scene files.  Loading
reads the manifest and all scene files.  A scene file that cannot be read or holds no
layout is passed over, and of two files with scenes of one name the first in the
order of the file names counts, so the order in which a directory is listed does not
matter.

A saved scene goes to a file that is named by the symbol of the scene's name; the
file lies in the directory of scenes whatever the name is.

## Main definitions

* `Source` — what is found in the directory of a project.
* `Project.load` — the project that is found.
* `FileTree.source`, `FileTree.saveScene`, `FileTree.reloadScene` — projects in a tree.
-/

namespace SceneLogic

/-- A manifest with the scenes of the project by name. -/
structure Project where
  manifest : Manifest
  scenes : NameMap Layout
deriving DecidableEq

/-- Why a project or a scene cannot be loaded or saved. -/
inductive LoadError where
  | pathNotFound
  | manifestNotFound
  | inaccessible (error : AccessError)
  | malformedManifest
  | malformedScene
deriving DecidableEq, Repr

/-- What is found in the directory of a project: whether there is anything at the
place, what bears the name of the manifest, and what the directory of scenes holds,
in any order.  Without a directory of scenes there is no list. -/
structure Source where
  found : Bool
  manifest : Option Node
  scenes : Except AccessError (List (FileName × Node))

namespace Project

/-- The name of the manifest. -/
def manifestName : String := "project.toml"

/-- The name of the directory of scenes. -/
def scenesName : String := "scenes"

/-- How the names of scene files end. -/
def sceneEnding : String := ".scene.json"

/-- Whether a name is that of a scene file. -/
def isSceneName (name : FileName) : Bool :=
  name.spelling?.isSome && (FileName.ofString sceneEnding).isSuffixOf name

/-- The layout that a scene file holds. -/
def loadScene (node : Node) : Except LoadError Layout :=
  match node.text with
  | .error error => .error (.inaccessible error)
  | .ok text =>
    match Layout.ofText? text with
    | some layout => .ok layout
    | none => .error .malformedScene

/-- Add a scene, unless there is one of its name. -/
def addScene (scenes : NameMap Layout) (layout : Layout) : NameMap Layout :=
  if scenes.contains layout.name then scenes else scenes.insert layout.name layout

/-- The scenes of the files of a directory. -/
def loadScenes (files : List (FileName × Node)) : NameMap Layout :=
  let files := files.filter fun file => isSceneName file.1
  let files := files.mergeSort fun a b => decide (a.1 ≤ b.1)
  (files.filterMap fun file => (loadScene file.2).toOption).foldl addScene ∅

/-- The project that is found. -/
def load (source : Source) : Except LoadError Project :=
  if !source.found then .error .pathNotFound
  else
    match source.manifest with
    | none => .error .manifestNotFound
    | some node =>
      match node.text with
      | .error error => .error (.inaccessible error)
      | .ok text =>
        match Manifest.ofText? text, source.scenes with
        | none, _ => .error .malformedManifest
        | some _, .error error => .error (.inaccessible error)
        | some manifest, .ok files => .ok ⟨manifest, loadScenes files⟩

/-- The files to load scenes from, given what bears the name of the directory of scenes
and what it holds if it is one. -/
def sceneFiles (node : Option Node) (files : List (FileName × Node)) :
    Except AccessError (List (FileName × Node)) :=
  match node with
  | none => .ok []
  | some (.file _) => .error .notDirectory
  | some .directory => .ok files

/-- The scene with a name. -/
def scene? (project : Project) (name : String) : Option Layout := project.scenes.get? name

/-- The scene that is run when none is named. -/
def firstScene? (project : Project) : Option Layout :=
  match project.manifest.firstScene with
  | some name => project.scene? name
  | none => project.scenes.values.head?

/-- The path of the directory of scenes. -/
def scenesPath (project : String) : String := Path.join project scenesName

/-- The path of the file of a saved scene. -/
def scenePath (project name : String) : String :=
  Path.join (scenesPath project) (mangleName name ++ sceneEnding)

end Project

namespace FileTree

open Project

/-- What is found in the directory of a project in a tree. -/
def source (tree : FileTree) (start : Place) (project : String) : Source where
  found := (tree.find? start project).isSome
  manifest := tree.find? start (Path.join project manifestName)
  scenes :=
    sceneFiles (tree.find? start (scenesPath project)) (tree.listing start (scenesPath project))

/-- Save a scene in a project.  The directory of scenes is created if it is missing,
and stays if the file cannot be written. -/
def saveScene (tree : FileTree) (start : Place) (project : String) (layout : Layout) :
    Except LoadError Unit × FileTree :=
  let (ready, tree) :=
    if (tree.find? start (scenesPath project)).isSome then (.ok (), tree)
    else tree.createDirectories start (scenesPath project)
  match ready with
  | .error error => (.error (.inaccessible error), tree)
  | .ok () =>
    let (written, tree) :=
      tree.write start (scenePath project layout.name) layout.toText.toUTF8
    (written.mapError .inaccessible, tree)

/-- Load the scene that was saved under a name; there may be none. -/
def reloadScene (tree : FileTree) (start : Place) (project name : String) :
    Except LoadError (Option Layout) :=
  match tree.find? start (scenePath project name) with
  | none => .ok none
  | some node => (loadScene node).map some

end FileTree

end SceneLogic

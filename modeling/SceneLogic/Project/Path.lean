import SceneLogic.Project.FileTree

/-!
# Written paths

A path is written as parts with slashes between them.  A path that starts with a slash
leads from the root, any other from a given directory.  An empty part or a dot stays
where it is, two dots go up, where the root is above itself, and any other part is
the name of what lies below.

Every part, an empty one included, starts from a directory; so `a/../b` leads nowhere
unless `a` is a directory, and `a/` leads nowhere if `a` is a file.  Only the last name
may be that of nothing, which is where something can be written.

## Main definitions

* `Path.join`, `Path.parts` — putting paths together and taking them apart.
* `FileTree.locate` — the place that a path leads to.
* `FileTree.find?`, `FileTree.listing` — what there is at a path and right below it.
* `FileTree.write`, `FileTree.createDirectories` — the updates.
-/

namespace SceneLogic

namespace Path

/-- How many bytes a path may have. -/
def maxLength : Nat := 4095

/-- A path with a name below it. -/
def join (path name : String) : String :=
  if path.toList.getLast? = some '/' then path ++ name else path ++ "/" ++ name

/-- The parts between the slashes. -/
def splitSlashes : List Char → List (List Char)
  | [] => [[]]
  | c :: rest =>
    if c = '/' then [] :: splitSlashes rest
    else
      match splitSlashes rest with
      | part :: parts => (c :: part) :: parts
      | [] => [[c]]

/-- The parts of a path. -/
def parts (path : String) : List (List Char) := splitSlashes path.toList

/-- Whether a path leads from the root. -/
def isAbsolute (path : String) : Bool := path.toList.head? = some '/'

/-- A path that leads anywhere is not empty, not too long, and without the character of
code zero. -/
def check (path : String) : Except AccessError Unit :=
  if path.toList.contains '\x00' then .error .nulByte
  else if maxLength < path.utf8ByteSize then .error .tooLong
  else if path = "" then .error .notFound
  else .ok ()

/-- The place from which a path leads on, when it may lead on from a given one. -/
def origin (start : Place) (path : String) : Place := if isAbsolute path then [] else start

end Path

namespace FileTree

/-- Go on from a place by one part of a path. -/
def enter (tree : FileTree) (place : Place) (part : List Char) : Except AccessError Place :=
  match tree.nodeAt? place with
  | none => .error .notFound
  | some (.file _) => .error .notDirectory
  | some .directory =>
    if part = [] ∨ part = ['.'] then .ok place
    else if part = ['.', '.'] then .ok place.dropLast
    else
      let name := FileName.ofString (String.ofList part)
      if FileName.maxLength < name.length then .error .tooLong else .ok (place ++ [name])

/-- Go on from a place by the parts of a path. -/
def follow (tree : FileTree) (place : Place) : List (List Char) → Except AccessError Place
  | [] => .ok place
  | part :: parts =>
    match tree.enter place part with
    | .error error => .error error
    | .ok place => tree.follow place parts

/-- The place that a path leads to; there may be nothing. -/
def locate (tree : FileTree) (start : Place) (path : String) : Except AccessError Place :=
  match Path.check path with
  | .error error => .error error
  | .ok () => tree.follow (Path.origin start path) (Path.parts path)

/-- What there is at a path. -/
def find? (tree : FileTree) (start : Place) (path : String) : Option Node :=
  match tree.locate start path with
  | .error _ => none
  | .ok place => tree.nodeAt? place

/-- What lies right below a path, as far as a path with one more name leads there. -/
def listing (tree : FileTree) (start : Place) (path : String) : List (FileName × Node) :=
  match tree.locate start path with
  | .error _ => []
  | .ok place =>
    (tree.children place).filterMap fun (name, _) => do
      let spelling ← name.spelling?
      let node ← tree.find? start (Path.join path spelling)
      return (name, node)

/-- Write a file.  Nothing changes if that fails. -/
def write (tree : FileTree) (start : Place) (path : String) (content : ByteArray) :
    Except AccessError Unit × FileTree :=
  match tree.locate start path with
  | .error error => (.error error, tree)
  | .ok place =>
    match tree.nodeAt? place with
    | some .directory => (.error .isDirectory, tree)
    | _ => (.ok (), tree.setNode place (.file content))

/-- Go on from a place by the parts of a path, and create the directories that are
missing on the way.  Those before an error stay. -/
def createAlong (tree : FileTree) (place : Place) :
    List (List Char) → Except AccessError Unit × FileTree
  | [] => (.ok (), tree)
  | part :: parts =>
    match tree.enter place part with
    | .error error => (.error error, tree)
    | .ok place =>
      match tree.nodeAt? place with
      | some .directory => tree.createAlong place parts
      | some (.file _) => (.error .notDirectory, tree)
      | none => (tree.setNode place .directory).createAlong place parts

/-- Create the directory at a path and those on the way to it, where they are missing. -/
def createDirectories (tree : FileTree) (start : Place) (path : String) :
    Except AccessError Unit × FileTree :=
  match Path.check path with
  | .error error => (.error error, tree)
  | .ok () => tree.createAlong (Path.origin start path) (Path.parts path)

end FileTree

end SceneLogic

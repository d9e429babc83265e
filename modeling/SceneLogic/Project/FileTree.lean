import SceneLogic.Lookup

/-!
# File trees

A tree of directories and files, in which a place is given by the names on the way
from the root.  Names and contents are strings of bytes; a content is text when it
is well-formed UTF-8.

Every place in a tree that is not the root lies in a directory of the tree.  Whoever
puts something at a place has to keep this.

## Main definitions

* `FileName`, `Node`, `FileTree` — names, files and directories, and the tree.
* `AccessError` — why something cannot be read or written.
* `FileTree.nodeAt?`, `FileTree.children` — what there is at a place and right below it.
* `FileTree.setNode` — the update of a place.
-/

namespace SceneLogic

/-- The name of a file or directory. -/
abbrev FileName := List UInt8

namespace FileName

/-- The name with a spelling. -/
def ofString (spelling : String) : FileName := spelling.toUTF8.data.toList

/-- The spelling of a name that is text. -/
def spelling? (name : FileName) : Option String := String.fromUTF8? ⟨name.toArray⟩

/-- How many bytes a name may have. -/
def maxLength : Nat := 255

end FileName

/-- The names on the way from the root to a place. -/
abbrev Place := List FileName

/-- Why something cannot be read or written. -/
inductive AccessError where
  | notFound
  | notText
  | isDirectory
  | notDirectory
  | tooLong
  | nulByte
deriving DecidableEq, Repr

/-- The wording of an error. -/
def AccessError.message : AccessError → String
  | .notFound => "No such file or directory (os error 2)"
  | .notText => "stream did not contain valid UTF-8"
  | .isDirectory => "Is a directory (os error 21)"
  | .notDirectory => "Not a directory (os error 20)"
  | .tooLong => "File name too long (os error 36)"
  | .nulByte => "file name contained an unexpected NUL byte"

/-- A file with its content, or a directory. -/
inductive Node where
  | file (content : ByteArray)
  | directory

/-- Whether it is a directory. -/
def Node.isDirectory : Node → Bool
  | .file _ => false
  | .directory => true

/-- The text of a file. -/
def Node.text : Node → Except AccessError String
  | .directory => .error .isDirectory
  | .file content =>
    match String.fromUTF8? content with
    | some text => .ok text
    | none => .error .notText

/-- What there is at each place but the root. -/
structure FileTree where
  nodes : List (Place × Node)

namespace FileTree

/-- The tree of an empty root. -/
def empty : FileTree := ⟨[]⟩

instance : EmptyCollection FileTree := ⟨empty⟩
instance : Inhabited FileTree := ⟨empty⟩

/-- What there is at a place; the root is a directory. -/
def nodeAt? (tree : FileTree) (place : Place) : Option Node :=
  if place = [] then some .directory else tree.nodes.lookup place

/-- Put something at a place. -/
def setNode (tree : FileTree) (place : Place) (node : Node) : FileTree :=
  ⟨(place, node) :: tree.nodes.filter (·.1 ≠ place)⟩

/-- The name of what lies right below a place, if something at another place does. -/
def nameBelow? (place other : Place) : Option FileName :=
  match other.getLast? with
  | some name => if other = place ++ [name] then some name else none
  | none => none

/-- What lies right below a place, by name. -/
def children (tree : FileTree) (place : Place) : List (FileName × Node) :=
  tree.nodes.filterMap fun entry => (nameBelow? place entry.1).map fun name => (name, entry.2)

end FileTree

end SceneLogic

import SceneLogic.CommandLine.Response

/-!
# The program

Looks up the project that the command line names, prints the response and ends with
its code.

The program does not list directories.  The names of the files in the directory of
scenes come on its standard input, a name a line, as in
`ls project/scenes | eventsheet check`; a name of no file is passed over.
-/

namespace SceneLogic

/-- The code with which reading a directory as a file fails. -/
def directoryCode : UInt32 := 21

/-- What there is at a path. -/
def findNode (path : String) : IO (Option Node) := do
  try
    return some (.file (← IO.FS.readBinFile path))
  catch
    | .noFileOrDirectory .. | .invalidArgument .. => return none
    | .inappropriateType _ code _ => return if code = directoryCode then some .directory else none
    | error => throw error

/-- The lines of the standard input up to an empty one or the end. -/
def readNames : IO (List String) := do
  let input ← IO.getStdin
  let mut names := #[]
  repeat
    let name := (← input.getLine).toList.takeWhile (· ≠ '\n')
    if name.isEmpty then break
    names := names.push (String.ofList name)
  return names.toList

/-- The named files of a directory. -/
def findFiles (directory : String) (names : List String) : IO (List (FileName × Node)) :=
  names.filterMapM fun name => do
    return (← findNode (Path.join directory name)).map fun node => (FileName.ofString name, node)

/-- What is found in the directory of a project. -/
def findSource (path : String) : IO Source := do
  let found := (← findNode path).isSome
  let manifest ← findNode (Path.join path Project.manifestName)
  let scenes := Project.scenesPath path
  let node ← findNode scenes
  let names ← if node.any Node.isDirectory then readNames else pure []
  return ⟨found, manifest, Project.sceneFiles node (← findFiles scenes names)⟩

end SceneLogic

open SceneLogic

/-- Answer the command line. -/
def main (words : List String) : IO UInt32 := do
  let source ← match Request.ofWords words with
    | .command path _ => findSource path
    | _ => pure ⟨false, none, .ok []⟩
  let response := respond words fun _ => source
  IO.print response.output
  IO.eprint response.errors
  return UInt32.ofNat response.code

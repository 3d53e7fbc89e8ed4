import PerceptronMesh.Command.Paths

/-!
The command line: fetches the files that a command needs, carries it out and
writes what has changed.
-/

namespace PerceptronMesh.Command

def isDirectory (path : Path) : BaseIO Bool := do
  match ← (IO.FS.realPath path.text).toBaseIO with
  | .ok found => found.isDir
  | .error _ => return false

/-- The tree with what is found at one path. -/
def fetchOne (tree : FileTree) (path : Path) : IO FileTree := do
  match tree.locate path with
  | .error _ => return tree
  | .ok location =>
    if ← isDirectory path then
      return { tree with directories := location :: tree.directories }
    match ← (IO.FS.readBinFile path.text).toBaseIO with
    | .ok bytes => return tree.put location bytes
    | .error _ => return tree

def fetch (tree : FileTree) (paths : List Path) : IO FileTree :=
  (paths.flatMap waypoints).foldlM fetchOne tree

/-- The files that the arguments ask for. -/
def fetchFor (args : List String) : IO FileTree := do
  match readArguments args with
  | .error _ => return {}
  | .ok request =>
    let own ← fetch {} request.ownPaths
    fetch own (request.dataPaths own)

def perform (args : List String) : IO UInt32 := do
  let files ← fetchFor args
  let outcome := execute args files
  for (path, bytes) in changes files outcome.files do
    IO.FS.writeBinFile path.text bytes
  IO.print outcome.output
  IO.eprint outcome.errors
  return outcome.code.toUInt32

end PerceptronMesh.Command

def main (args : List String) : IO UInt32 := PerceptronMesh.Command.perform args

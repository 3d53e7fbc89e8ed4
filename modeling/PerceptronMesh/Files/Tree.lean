import PerceptronMesh.Files.Path

/-!
A tree of files and the outcome of reading and writing in it. Locations are
lists of names from the working directory on; the name `/` starts an absolute
one, and each `..` in front leads one directory further up.
-/

namespace PerceptronMesh

/-- Why a file cannot be read or written. -/
inductive FileError where
  | notFound
  | notDirectory
  | isDirectory
  | nameTooLong
  | nulInName
  | invalidUtf8
deriving DecidableEq, Repr

def FileError.message : FileError → String
  | .notFound => "No such file or directory (os error 2)"
  | .notDirectory => "Not a directory (os error 20)"
  | .isDirectory => "Is a directory (os error 21)"
  | .nameTooLong => "File name too long (os error 36)"
  | .nulInName => "file name contained an unexpected NUL byte"
  | .invalidUtf8 => "stream did not contain valid UTF-8"

abbrev Location := List String

structure FileTree where
  directories : List Location := []
  files : List (Location × ByteArray) := []

namespace FileTree

def file? (tree : FileTree) (at_ : Location) : Option ByteArray :=
  (tree.files.find? (·.1 == at_)).map (·.2)

/-- The root, the working directory and those above it, the listed directories
    and all that lie above a file are directories. -/
def isDirectory (tree : FileTree) (at_ : Location) : Bool :=
  at_ == ["/"] || at_.all (· == "..") || tree.directories.any (at_.isPrefixOf ·) ||
    tree.files.any fun (location, _) => at_.isPrefixOf location && at_ != location

/-- The directory above a location. The root is above itself. -/
def above (at_ : Location) : Location :=
  match at_.getLast? with
  | none | some ".." => at_ ++ [".."]
  | some "/" => at_
  | some _ => at_.dropLast

/-- One step from a location, which has to be a directory. -/
def step (tree : FileTree) (at_ : Location) (segment : String) : Except FileError Location :=
  if tree.isDirectory at_ then
    if segment == "." then .ok at_
    else if segment == ".." then .ok (above at_)
    else if 255 < segment.utf8ByteSize then .error .nameTooLong
    else .ok (at_ ++ [segment])
  else if (tree.file? at_).isSome then .error .notDirectory
  else .error .notFound

/-- Where a path leads. Only its last name may be missing from the tree. -/
def locate (tree : FileTree) (path : Path) : Except FileError Location :=
  if path.text.isEmpty then .error .notFound
  else if path.text.toList.contains '\x00' then .error .nulInName
  else if 4095 < path.text.utf8ByteSize then .error .nameTooLong
  else
    let start : Location := if path.isAbsolute then ["/"] else []
    path.steps.foldlM tree.step start

def readBytes (tree : FileTree) (path : Path) : Except FileError ByteArray := do
  let location ← tree.locate path
  if tree.isDirectory location then throw .isDirectory
  match tree.file? location with
  | some bytes => if path.endsInSlash then throw .notDirectory else pure bytes
  | none => throw .notFound

def readText (tree : FileTree) (path : Path) : Except FileError String := do
  let bytes ← tree.readBytes path
  match String.fromUTF8? bytes with
  | some text => pure text
  | none => throw .invalidUtf8

/-- Whether the path leads to a file or directory. -/
def pathExists (tree : FileTree) (path : Path) : Bool :=
  match tree.locate path with
  | .ok location => tree.isDirectory location || (tree.file? location).isSome
  | .error _ => false

/-- The tree with a file put at a location, in place of one that was there. -/
def put (tree : FileTree) (location : Location) (bytes : ByteArray) : FileTree :=
  { tree with files := tree.files.filter (·.1 != location) ++ [(location, bytes)] }

/-- The location that a write to the path creates or replaces. The directory
    above it has to exist. A path that ends in a slash means a directory, even if
    it leads to a file or to nothing. -/
def writable (tree : FileTree) (path : Path) : Except FileError Location := do
  let location ← tree.locate path
  if tree.isDirectory location || path.endsInSlash then throw .isDirectory
  pure location

def writeText (tree : FileTree) (path : Path) (text : String) : Except FileError FileTree := do
  let location ← tree.writable path
  pure (tree.put location text.toUTF8)

end FileTree

end PerceptronMesh

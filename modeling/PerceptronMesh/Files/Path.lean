/-!
Slash-separated paths, kept in the spelling they were given in.
-/

namespace PerceptronMesh

structure Path where
  text : String
deriving DecidableEq, Repr, Inhabited

namespace Path

def ofString (text : String) : Path := ⟨text⟩

/-- Pieces of a character list between occurrences of `separator`; one more
    piece than occurrences. -/
def splitAt (separator : Char) : List Char → List (List Char)
  | [] => [[]]
  | c :: rest =>
    if c = separator then [] :: splitAt separator rest
    else match splitAt separator rest with
      | piece :: pieces => (c :: piece) :: pieces
      | [] => [[c]]

def segments (path : Path) : List String :=
  (splitAt '/' path.text.toList).map String.ofList

def isAbsolute (path : Path) : Bool := path.text.toList.head? = some '/'

/-- A path relative to `base`; an absolute path replaces it. -/
def join (base path : Path) : Path :=
  if path.isAbsolute || base.text.isEmpty then path
  else if base.text.toList.getLast? = some '/' then ⟨base.text ++ path.text⟩
  else ⟨base.text ++ "/" ++ path.text⟩

/-- Segments that name nothing: empty ones, and `.` anywhere but in front. -/
def isVoid (isFirst : Bool) (segment : String) : Bool :=
  segment.isEmpty || (segment == "." && !isFirst)

/-- Drops void segments at the end of a reversed list of segments, keeping the
    empty one that stands for the root. -/
def dropVoid (absolute : Bool) : List String → List String
  | [] => []
  | [first] => if first.isEmpty && !absolute then [] else [first]
  | segment :: rest => if isVoid false segment then dropVoid absolute rest else segment :: rest

/-- The segments up to the last one that names something, reversed. -/
def reversedSegments (path : Path) : List String :=
  dropVoid path.isAbsolute path.segments.reverse

/-- The path without its last component, if it has one. -/
def parent (path : Path) : Option Path :=
  match path.reversedSegments with
  | [] => none
  | _ :: rest =>
    if rest.isEmpty then (if path.isAbsolute then none else some ⟨""⟩)
    else
      let kept := (dropVoid path.isAbsolute rest).reverse
      if kept = [""] then some ⟨"/"⟩ else some ⟨String.intercalate "/" kept⟩

/-- The last component, unless it is a dot segment or the root. -/
def fileName (path : Path) : Option String :=
  match path.reversedSegments with
  | [] => none
  | name :: _ => if name.isEmpty || name == "." || name == ".." then none else some name

/-- Everything in front of the last point of a name; a name with its only point
    in front is kept whole. -/
def stemOf (name : String) : String :=
  let reversed := name.toList.reverse
  match reversed.dropWhile (· ≠ '.') with
  | [] => name
  | _ :: front => if front.isEmpty then name else String.ofList front.reverse

def fileStem (path : Path) : Option String := path.fileName.map stemOf

/-- Whether the path ends in a slash and so can only lead to a directory. -/
def endsInSlash (path : Path) : Bool := path.text.toList.getLast? = some '/'

/-- The names and dot segments of the path in order. -/
def steps (path : Path) : List String := path.segments.filter fun s => !s.isEmpty

end Path

end PerceptronMesh

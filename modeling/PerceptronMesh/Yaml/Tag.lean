/-!
Tags, which say what kind of value a node has. A tag is a sequence of octets,
since escapes may write any of them.
-/

namespace PerceptronMesh.Yaml

structure Tag where
  octets : List UInt8
deriving DecidableEq, Repr

namespace Tag

def ofString (text : String) : Tag := ⟨text.toUTF8.toList⟩

/-- Tags of values that every application knows share this start. -/
def sharedStart : String := "tag:yaml.org,2002:"

def null : Tag := ofString (sharedStart ++ "null")

def flag : Tag := ofString (sharedStart ++ "bool")

def integer : Tag := ofString (sharedStart ++ "int")

def real : Tag := ofString (sharedStart ++ "float")

def append (start rest : Tag) : Tag := ⟨start.octets ++ rest.octets⟩

/-- Whether the meaning of a tag is up to the application. -/
def isLocal (tag : Tag) : Bool := tag.octets.head? = some 0x21

/-- What a local tag says after its exclamation mark. A mark that stands alone
    says just that. -/
def localName? (tag : Tag) : Option String :=
  match tag.octets with
  | [] => none
  | first :: rest =>
    if first = 0x21 then
      String.fromUTF8? ⟨(if rest.isEmpty then [first] else rest).toArray⟩
    else none

end Tag

end PerceptronMesh.Yaml

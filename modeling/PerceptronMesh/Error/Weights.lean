import PerceptronMesh.Files.Tree

/-!
Faults of weights files.
-/

namespace PerceptronMesh

/-- The header lines of a weights file, in order. -/
inductive WeightsHeader where
  | magicCookie
  | linkCount
  | valueCount
  | updateCount
deriving DecidableEq, Repr

def WeightsHeader.name : WeightsHeader → String
  | .magicCookie => "magic cookie"
  | .linkCount => "link count"
  | .valueCount => "value count"
  | .updateCount => "update count"

inductive WeightsError where
  | unreadable (path : Path) (cause : FileError)
  | noHeader (header : WeightsHeader)
  | badHeader (line : Nat) (header : WeightsHeader) (text : String)
  | wrongMagic (found : Nat)
  | wrongLinkCount (found expected : Nat)
  | badValueCount (found : Nat)
  | endsEarly
  | badWeight (line : Nat) (text : String)
deriving DecidableEq, Repr

def WeightsError.detail : WeightsError → String
  | .unreadable path cause => s!"cannot open weights file {path.text}: {cause.message}"
  | .noHeader header => s!"missing {header.name} header"
  | .badHeader line header text => s!"line {line}: bad {header.name} '{text}'"
  | .wrongMagic found => s!"incorrect weights file type (magic {found})"
  | .wrongLinkCount found expected => s!"file holds {found} links, network expects {expected}"
  | .badValueCount found => s!"values per link must be 1-3, got {found}"
  | .endsEarly => "file ends before all weights"
  | .badWeight line text => s!"line {line}: bad weight '{text}'"

end PerceptronMesh

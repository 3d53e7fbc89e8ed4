import PerceptronMesh.Yaml.Tag

/-!
Tokens of YAML. Indentation shows as tokens that open and close blocks.
-/

namespace PerceptronMesh.Yaml

/-- How a scalar is written. -/
inductive Style where
  | plain
  | quoted
  /-- Lines that keep their ends. -/
  | literal
  /-- Lines that are joined. -/
  | folded
deriving DecidableEq, Repr

inductive Token where
  | documentStart
  | documentEnd
  | blockSequence
  | blockMapping
  | blockEnd
  | flowSequence
  | flowSequenceEnd
  | flowMapping
  | flowMappingEnd
  /-- The dash before an entry of a block sequence. -/
  | dash
  | comma
  | key
  /-- The colon between a key and its value. -/
  | colon
  | scalar (text : String) (style : Style)
  /-- A name for the node that follows. -/
  | anchor (name : String)
  /-- Stands for the node of a name. -/
  | reference (name : String)
  /-- A tag whose start a handle abbreviates. Without a handle it is complete. -/
  | tag (handle : String) (rest : Tag)
  /-- The version of YAML that a document is written in. -/
  | version (major minor : Nat)
  /-- What a handle abbreviates in a document. -/
  | tagHandle (handle : String) (start : Tag)
deriving DecidableEq, Repr

end PerceptronMesh.Yaml

import PerceptronMesh.Yaml.Token

/-!
What a YAML document holds: scalars, sequences and mappings, and references to
such nodes. Anchors are numbered; if several have one number, the last of them
counts.
-/

namespace PerceptronMesh.Yaml

/-- A piece of text. How it is written and tagged decides what it can stand for. -/
structure Scalar where
  text : String
  style : Style := .plain
  tag : Option Tag := none
deriving DecidableEq, Repr

inductive Node where
  | scalar (s : Scalar)
  | sequence (tag : Option Tag) (items : List Node)
  | mapping (tag : Option Tag) (entries : List (Node × Node))
  /-- A node that references to a number stand for. -/
  | anchored (number : Nat) (content : Node)
  | reference (number : Nat)

namespace Node

/-- What is read where nothing is written. -/
def absent : Node := .scalar { text := "" }

mutual

/-- The anchored nodes, in the order in which they start. -/
def anchors : Node → List (Nat × Node)
  | .scalar _ => []
  | .sequence _ items => anchorsOfItems items
  | .mapping _ entries => anchorsOfEntries entries
  | .anchored number content => (number, content) :: anchors content
  | .reference _ => []

def anchorsOfItems : List Node → List (Nat × Node)
  | [] => []
  | item :: items => anchors item ++ anchorsOfItems items

def anchorsOfEntries : List (Node × Node) → List (Nat × Node)
  | [] => []
  | (key, value) :: entries => anchors key ++ (anchors value ++ anchorsOfEntries entries)

end

mutual

/-- The size of a node: one for a scalar or a reference, and two for each
    sequence or mapping besides what it holds. -/
def size : Node → Nat
  | .scalar _ => 1
  | .sequence _ items => sizeOfItems items + 2
  | .mapping _ entries => sizeOfEntries entries + 2
  | .anchored _ content => size content
  | .reference _ => 1

def sizeOfItems : List Node → Nat
  | [] => 0
  | item :: items => size item + sizeOfItems items

def sizeOfEntries : List (Node × Node) → Nat
  | [] => 0
  | (key, value) :: entries => size key + size value + sizeOfEntries entries

end

end Node

end PerceptronMesh.Yaml

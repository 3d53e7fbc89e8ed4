import PerceptronMesh.Example.Binding
import PerceptronMesh.Example.Record
import PerceptronMesh.Example.Text

/-!
Sets of examples and their compilation against a topology.
-/

namespace PerceptronMesh

structure ExampleSet where
  label : String
  header : SetHeader := {}
  examples : List Example := []
  /-- Whether any examples were added or read, even none at all. -/
  loaded : Bool := false
  /-- The records of the last compilation, until the set changes. -/
  compiled : Option CompiledExamples := none
deriving DecidableEq

namespace ExampleSet

/-- The set without its compilation. -/
def invalidate (s : ExampleSet) : ExampleSet := { s with compiled := none }

/-- Replaces the times that are given. -/
def setTimes (s : ExampleSet) (times : Times) : ExampleSet :=
  { s.invalidate with header := { s.header with times := times.or s.header.times } }

def addExample (s : ExampleSet) (e : Example) : ExampleSet :=
  { s.invalidate with examples := s.examples ++ [e], loaded := true }

/-- Adds the contents of example text. Values of its header replace the set's. -/
def addContents (s : ExampleSet) (contents : Example.TextContents) : ExampleSet :=
  { s.invalidate with
    header := contents.header.or s.header
    examples := s.examples ++ contents.examples
    loaded := true }

/-- Reads example text into the set and counts its examples. -/
def readText (s : ExampleSet) (text : String) : Result (Nat × ExampleSet) := do
  let contents ← Example.readText text.toList
  pure (contents.examples.length, s.addContents contents)

/-- Reads an examples file into the set. -/
def readAt (s : ExampleSet) (files : FileTree) (path : Path) : Result (Nat × ExampleSet) :=
  match files.readText path with
  | .ok text => s.readText text
  | .error cause => .error (.examples (.unreadable path cause))

/-- Binds all events to the topology's groups and makes the records. Groups
    change only if every event binds; a set that is compiled already stays as it
    is. -/
def compile (s : ExampleSet) (t : Topology) : Result (ExampleSet × Topology) :=
  match s.compiled with
  | some _ => .ok (s, t)
  | none =>
    (Binding.columns t s.header.defaults (s.examples.flatMap (·.events))).map fun columns =>
      ({ s with compiled := some (.ofExamples s.header.times s.examples) }, t.withValues columns)

/-- Number of compiled examples, 0 before compilation. -/
def compiledCount (s : ExampleSet) : Nat := (s.compiled.map (·.examples.length)).getD 0

end ExampleSet

end PerceptronMesh

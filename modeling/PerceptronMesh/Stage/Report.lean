import PerceptronMesh.Stage.Descriptor
import PerceptronMesh.Stage.Outputs

/-!
What a placement service returns after a stage.
-/

namespace PerceptronMesh

/-- Counts that the last output group logs at the end of a test. -/
structure TestResults where
  epochsTrained : UInt32 := 0
  examplesTested : UInt32 := 0
  ticksTested : UInt32 := 0
  examplesCorrect : UInt32 := 0
deriving DecidableEq, Repr

namespace TestResults

def size : Nat := 16

def fields (r : TestResults) : List Wire.Field :=
  [.u32 r.epochsTrained, .u32 r.examplesTested, .u32 r.ticksTested, .u32 r.examplesCorrect]

def bytes (r : TestResults) : List UInt8 := Wire.encode r.fields

@[simp] theorem length_bytes (r : TestResults) : r.bytes.length = size := rfl

/-- Reads the counts; bytes after them are not looked at. -/
def decode (data : List UInt8) : Result TestResults :=
  let counts : Except WireError TestResults := do
    let r := Wire.Reader.ofBytes data
    let (epochsTrained, r) ← r.u32
    let (examplesTested, r) ← r.u32
    let (ticksTested, r) ← r.u32
    let (examplesCorrect, _) ← r.u32
    pure { epochsTrained, examplesTested, ticksTested, examplesCorrect }
  counts.mapError .wire

def text (r : TestResults) : String :=
  s!"epochs trained: {r.epochsTrained}, examples tested: {r.examplesTested}, " ++
    s!"ticks: {r.ticksTested}, correct: {r.examplesCorrect}"

def toJson (r : TestResults) : Json := .object [
  ("epochs_trained", .nat r.epochsTrained.toNat),
  ("examples_tested", .nat r.examplesTested.toNat),
  ("ticks_tested", .nat r.ticksTested.toNat),
  ("examples_correct", .nat r.examplesCorrect.toNat)]

end TestResults

structure StageReport where
  stageId : UInt32
  mode : StageMode
  testResults : Option TestResults := none
  /-- Absent where no group records its outputs. -/
  outputs : Option RecordedOutputs := none
deriving DecidableEq, Repr

namespace StageReport

/-- Members of the report without the recorded outputs. -/
def members (r : StageReport) : List (String × Json) :=
  [("stage_id", .nat r.stageId.toNat), ("mode", .string r.mode.name)] ++
    r.testResults.toList.map fun results => ("test_results", results.toJson)

def toJson (r : StageReport) : Json := .object r.members

end StageReport

end PerceptronMesh

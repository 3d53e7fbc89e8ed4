import PerceptronMesh.Json.Value
import PerceptronMesh.Topology.Function
import PerceptronMesh.Wire.Field

/-!
The modes of a stage, and the description of a stage that every unit holds while the stage runs.
-/

namespace PerceptronMesh

inductive StageMode where
  | test
  | train
deriving DecidableEq, Repr, Inhabited

namespace StageMode

def all : List StageMode := [.test, .train]

def code : StageMode → UInt8
  | .test => 0
  | .train => 1

def name : StageMode → String
  | .test => "test"
  | .train => "train"

def ofName? (name : String) : Option StageMode := all.find? (·.name == name)

end StageMode

structure StageDescriptor where
  id : UInt32
  mode : StageMode
  updateFunction : UpdateFunction
  /-- Whether the stage starts again from the first example. -/
  reset : Bool
  /-- Presentations of one epoch. -/
  examples : UInt32
  epochs : UInt32
deriving DecidableEq, Repr

namespace StageDescriptor

/-- Bytes of every encoded stage. -/
def size : Nat := 16

def fields (s : StageDescriptor) : List Wire.Field :=
  [.u32 s.id, .u8 s.mode.code, .u8 s.updateFunction.code, .flag s.reset, .pad 1,
    .u32 s.examples, .u32 s.epochs]

/-- The contents of a Stage region. -/
def bytes (s : StageDescriptor) : List UInt8 := Wire.encode s.fields

@[simp] theorem length_bytes (s : StageDescriptor) : s.bytes.length = size := rfl

def toJson (s : StageDescriptor) : Json := .object [
  ("stage_id", .nat s.id.toNat), ("mode", .string s.mode.name),
  ("update_function", .string s.updateFunction.name), ("reset", .bool s.reset),
  ("num_examples", .nat s.examples.toNat), ("num_epochs", .nat s.epochs.toNat)]

end StageDescriptor

end PerceptronMesh

import PerceptronMesh.Example.Basic
import PerceptronMesh.Wire.Field

/-!
Records of four words each that describe a set, its examples and their events to
the units.
-/

namespace PerceptronMesh

open Fixed

structure SetRecord where
  examples : UInt32
  maxTime : FpReal
  minTime : FpReal
  graceTime : FpReal
deriving DecidableEq

structure ExampleRecord where
  number : UInt32
  events : UInt32
  /-- Position of the first event in the table of events. -/
  firstEvent : UInt32
  frequency : FpReal
deriving DecidableEq

structure EventRecord where
  maxTime : FpReal
  minTime : FpReal
  graceTime : FpReal
  /-- Row of the event in every group's values. -/
  row : UInt32
deriving DecidableEq

namespace SetRecord

def size : Nat := 16

def fields (r : SetRecord) : List Wire.Field :=
  [.u32 r.examples, .fixed _ r.maxTime, .fixed _ r.minTime, .fixed _ r.graceTime]

def bytes (r : SetRecord) : List UInt8 := Wire.encode r.fields

def make (examples : Nat) (times : Times) : SetRecord :=
  { examples := UInt32.ofNat examples
    maxTime := .ofOption times.max, minTime := .ofOption times.min
    graceTime := .ofOption times.grace }

end SetRecord

namespace ExampleRecord

def size : Nat := 16

def fields (r : ExampleRecord) : List Wire.Field :=
  [.u32 r.number, .u32 r.events, .u32 r.firstEvent, .fixed _ r.frequency]

def bytes (r : ExampleRecord) : List UInt8 := Wire.encode r.fields

end ExampleRecord

namespace EventRecord

def size : Nat := 16

def fields (r : EventRecord) : List Wire.Field :=
  [.fixed _ r.maxTime, .fixed _ r.minTime, .fixed _ r.graceTime, .u32 r.row]

def bytes (r : EventRecord) : List UInt8 := Wire.encode r.fields

def make (row : Nat) (times : Times) : EventRecord :=
  { maxTime := .ofOption times.max, minTime := .ofOption times.min
    graceTime := .ofOption times.grace, row := UInt32.ofNat row }

end EventRecord

/-- The records of a compiled set. -/
structure CompiledExamples where
  set : SetRecord
  examples : List ExampleRecord
  events : List EventRecord
deriving DecidableEq

namespace CompiledExamples

/-- Records of examples, numbered from `number` on and with their first event at
    `firstEvent`. -/
def exampleRecords (number firstEvent : Nat) : List Example → List ExampleRecord
  | [] => []
  | e :: rest =>
    { number := UInt32.ofNat number, events := UInt32.ofNat e.events.length
      firstEvent := UInt32.ofNat firstEvent
      frequency := .ofBinary64 (e.frequency.getD (.ofNat 1)) } ::
      exampleRecords (number + 1) (firstEvent + e.events.length) rest

/-- Describes examples under the times of their set. -/
def ofExamples (times : Times) (examples : List Example) : CompiledExamples :=
  { set := .make examples.length times
    examples := exampleRecords 0 0 examples
    events := (examples.flatMap (·.events)).mapIdx fun row event => .make row event.times }

end CompiledExamples

end PerceptronMesh

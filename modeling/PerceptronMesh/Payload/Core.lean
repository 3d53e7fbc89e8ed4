import PerceptronMesh.Payload.Record
import PerceptronMesh.Topology.Group

/-!
Core regions, with one layout for each role of a unit.
-/

namespace PerceptronMesh

open Fixed Wire

structure WeightCore where
  /-- Units of the subgroup that activations come from. -/
  rows : UInt32
  /-- Units of the subgroup that they go to. -/
  columns : UInt32
  initOutput : Activation
  learningRate : ShortFpReal
  weightDecay : ShortFpReal
  momentum : ShortFpReal
  /-- Expected senders of every category. -/
  expected : CategoryWords

structure SumCore where
  units : UInt32
  forward : UInt32
  backprop : UInt32
  linkDeltas : UInt32
  syncs : UInt32
  siblings : UInt32
  isFirstGroup : Bool
  isTreeRoot : Bool
  /-- Whether all reductions end here. -/
  isFirstRoot : Bool
deriving DecidableEq, Repr

structure InputCore where
  isOutput : Bool
  isInput : Bool
  units : UInt32
  functionCount : UInt32
  functions : Vector UInt8 maxInputFunctions
  integrates : Bool
  tickShare : FpReal
  softClamp : FpReal
  initNet : FpReal
  initOutput : Activation
deriving DecidableEq

structure ThresholdCore where
  isOutput : Bool
  isInput : Bool
  units : UInt32
  partitions : UInt32
  recordResults : Bool
  writeOut : Bool
  lastTickOnly : Bool
  writeBlock : UInt32
  hardClamps : Bool
  integrates : Bool
  tickShare : FpReal
  functionCount : UInt32
  functions : Vector UInt8 maxOutputFunctions
  weakClamp : FpReal
  initOutput : Activation
  testCriterion : ErrorValue
  trainCriterion : ErrorValue
  criterion : UInt8
  isFirstOutput : Bool
  isLastOutput : Bool
  errorFunction : UInt8
  /-- Decisions that the chain predecessor sends. -/
  decisions : UInt32
deriving DecidableEq

/-- Function codes take a word each. -/
def codeFields (codes : List UInt8) : List Field := codes.map fun code => .u32 code.toUInt32

namespace WeightCore

def size : Nat := 40

def fields (c : WeightCore) : List Field :=
  [.u32 c.rows, .u32 c.columns, .fixed _ c.initOutput, .fixed _ c.learningRate,
    .fixed _ c.weightDecay, .fixed _ c.momentum, .pad 2] ++
    Category.all.map fun category => .u32 (c.expected category)

def bytes (c : WeightCore) : List UInt8 := encode c.fields

end WeightCore

namespace SumCore

def size : Nat := 28

def fields (c : SumCore) : List Field :=
  [.u32 c.units, .u32 c.forward, .u32 c.backprop, .u32 c.linkDeltas, .u32 c.syncs,
    .u32 c.siblings, .flag c.isFirstGroup, .flag c.isTreeRoot, .flag c.isFirstRoot, .pad 1]

def bytes (c : SumCore) : List UInt8 := encode c.fields

end SumCore

namespace InputCore

def size : Nat := 40

def fields (c : InputCore) : List Field :=
  [.flag c.isOutput, .flag c.isInput, .pad 2, .u32 c.units, .u32 c.functionCount] ++
    codeFields c.functions.toList ++
  [.flag c.integrates, .pad 3, .fixed _ c.tickShare, .fixed _ c.softClamp, .fixed _ c.initNet,
    .fixed _ c.initOutput]

def bytes (c : InputCore) : List UInt8 := encode c.fields

end InputCore

namespace ThresholdCore

def size : Nat := 76

def fields (c : ThresholdCore) : List Field :=
  [.flag c.isOutput, .flag c.isInput, .pad 2, .u32 c.units, .u32 c.partitions,
    .flag c.recordResults, .flag c.writeOut, .flag c.lastTickOnly, .pad 1, .u32 c.writeBlock,
    .flag c.hardClamps, .flag c.integrates, .pad 2, .fixed _ c.tickShare,
    .u32 c.functionCount] ++
    codeFields c.functions.toList ++
  [.fixed _ c.weakClamp, .fixed _ c.initOutput, .fixed _ c.testCriterion,
    .fixed _ c.trainCriterion, .u8 c.criterion, .flag c.isFirstOutput, .flag c.isLastOutput,
    .u8 c.errorFunction, .u32 c.decisions]

def bytes (c : ThresholdCore) : List UInt8 := encode c.fields

end ThresholdCore

end PerceptronMesh

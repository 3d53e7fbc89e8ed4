import PerceptronMesh.Compile.Basic
import PerceptronMesh.Example.Record
import PerceptronMesh.Payload.Core
import PerceptronMesh.Payload.UnitPayload
import PerceptronMesh.Placement.RoutingTable
import PerceptronMesh.Stage.Descriptor

/-!
The payloads of all units, made from the compiled state of a network.
-/

namespace PerceptronMesh

open Fixed Wire Numeric

/-- All that payloads are made from. -/
structure PayloadSource where
  topology : Topology
  compiled : CompiledGraph
  settings : Settings
  recording : Recording
  examples : CompiledExamples
  routing : RoutingTable

/-- Codes of a pipeline, those beyond its end being `none`. -/
def functionCodes {α : Type} (code : α → UInt8) (none : α) (functions : List α) (slots : Nat) :
    Vector UInt8 slots :=
  .ofFn fun slot => code (functions.getD slot none)

namespace PayloadSource

variable (s : PayloadSource)

def networkRecord : NetworkRecord :=
  { kind := s.settings.kind
    ticksPerInterval := UInt32.ofNat s.settings.ticksPerInterval
    globalMaxTicks := s.settings.globalMaxTicks
    outputGroups := UInt32.ofNat s.topology.outputChain.length }

/-- Group and subgroup that a Weight unit takes activations from. -/
def weightSource (u : MeshUnit) : Result (GroupId × Nat) :=
  match u.source with
  | some source => .ok source
  | none => .error (.payload (.notWeightUnit u.id))

/-- A learning parameter of a pair of groups: the destination's own or else the
    network's, and 0 where no link was declared. -/
def rate (linked : Bool) (own : Option Binary64) (common : Binary64) : ShortFpReal :=
  if linked then .ofBinary64 (own.getD common) else .ofRaw 0

def weightCore (g source : Group) (fromSubgroup : Nat) (u : MeshUnit) : WeightCore :=
  let linked := g.isLinkedFrom source.id
  { rows := UInt32.ofNat (source.subgroupUnits fromSubgroup)
    columns := UInt32.ofNat u.units
    initOutput := .ofBinary64 source.initOutput
    learningRate := rate linked g.params.learningRate s.settings.learningRate
    weightDecay := rate linked g.params.weightDecay s.settings.weightDecay
    momentum := rate linked g.params.momentum s.settings.momentum
    expected := fun c => UInt32.ofNat (s.compiled.plan.expectedSenders u c) }

def sumCore (u : MeshUnit) : SumCore :=
  let expected := s.compiled.plan.sumExpectations u
  let isFirstGroup : Bool := u.group = s.compiled.plan.firstGroup
  let isTreeRoot : Bool := u.treeNode = some 0
  { units := UInt32.ofNat u.units
    forward := UInt32.ofNat expected.forward
    backprop := UInt32.ofNat expected.backprop
    linkDeltas := expected.linkDeltas
    syncs := UInt32.ofNat expected.syncs
    siblings := UInt32.ofNat expected.siblings
    isFirstGroup, isTreeRoot
    isFirstRoot := isFirstGroup && u.subgroup = 0 && isTreeRoot }

def inputCore (g : Group) (u : MeshUnit) : InputCore :=
  { isOutput := g.roles.output
    isInput := g.roles.input
    units := UInt32.ofNat u.units
    functionCount := UInt32.ofNat g.inputFunctions.length
    functions := functionCodes InputFunction.code .none g.inputFunctions _
    integrates := g.integratesInput
    tickShare := .ofBinary64 s.settings.tickShare
    softClamp := .ofBinary64 g.softClamp
    initNet := .ofBinary64 g.initNet
    initOutput := .ofBinary64 g.initOutput }

/-- A convergence criterion: the group's own, else the network's, else 0. -/
def criterion (own common : Option Binary64) : ErrorValue :=
  .ofBinary64 ((own.or common).getD (.zero false))

def thresholdCore (g : Group) (u : MeshUnit) : ThresholdCore :=
  let chain := s.topology.outputChain
  { isOutput := g.roles.output
    isInput := g.roles.input
    units := UInt32.ofNat u.units
    partitions := 1
    recordResults := s.recording.testResults
    writeOut := g.writeOut
    lastTickOnly := !s.recording.outputs || s.recording.lastTickOnly
    writeBlock := UInt32.ofNat g.writeBlock
    hardClamps := g.hardClamps
    integrates := g.integratesOutput
    tickShare := .ofBinary64 s.settings.tickShare
    functionCount := UInt32.ofNat g.outputFunctions.length
    functions := functionCodes OutputFunction.code .none g.outputFunctions _
    weakClamp := .ofBinary64 g.weakClamp
    initOutput := .ofBinary64 g.initOutput
    testCriterion := criterion g.params.testCriterion s.settings.testCriterion
    trainCriterion := criterion g.params.trainCriterion s.settings.trainCriterion
    criterion := g.criterion.code
    isFirstOutput := chain.head? = some g.id
    isLastOutput := chain.getLast? = some g.id
    errorFunction := g.errorFunction.code
    decisions := UInt32.ofNat (s.compiled.plan.expectedDecisions u) }

/-- The Core region of a unit. -/
def coreRegion (u : MeshUnit) : Result (List UInt8) := do
  let g ← s.topology.group u.group
  match u.role with
  | .weight =>
    let (from_, fromSubgroup) ← weightSource u
    let source ← s.topology.group from_
    pure (s.weightCore g source fromSubgroup u).bytes
  | .sum => pure (s.sumCore u).bytes
  | .input => pure (s.inputCore g u).bytes
  | .threshold => pure (s.thresholdCore g u).bytes

/-- The weights between two subgroups, one row for each source unit, from a
    group's weights of which the source group has `sourceUnits` a unit. -/
def weightBlock (weights : Array Binary64) (sourceUnits rowOffset rows columnOffset columns : Nat) :
    List Field :=
  (List.range rows).flatMap fun r =>
    (List.range columns).map fun c =>
      .fixed .weight (.ofBinary64
        (weights.getD ((columnOffset + c) * sourceUnits + rowOffset + r) (.zero false)))

/-- The Weights region of a Weight unit, all zero where no weights are held. -/
def weightsRegion (u : MeshUnit) : Result (List UInt8) := do
  let (from_, fromSubgroup) ← weightSource u
  let target ← s.topology.group u.group
  let source ← s.topology.group from_
  let needed := target.units * source.units
  let weights := (target.weightsFrom? from_).getD (Array.replicate needed (.zero false))
  if weights.size < needed then
    throw (.payload (.fewWeights target.label weights.size source.label needed))
  pure (encode (weightBlock weights source.units
    (source.subgroupOffset fromSubgroup) (source.subgroupUnits fromSubgroup)
    (target.subgroupOffset u.subgroup) (target.subgroupUnits u.subgroup)))

/-- The part of every row of a group's values that belongs to a unit. -/
def valuesRegion (g : Group) (u : MeshUnit) (values : Array UnitValue) : Result (List UInt8) :=
  if g.units = 0 ∨ values.size % g.units ≠ 0 then
    .error (.payload (.raggedValues g.label values.size g.units))
  else
    let offset := g.subgroupOffset u.subgroup
    .ok (encode ((List.range (values.size / g.units)).flatMap fun row =>
      (values.extract (row * g.units + offset) (row * g.units + offset + u.units)).toList.map
        fun value => .fixed .activation (.ofOption value)))

/-- A region of values, where there are any. -/
def optionalRegion (region : Region) (g : Group) (u : MeshUnit) (values : Array UnitValue) :
    Result (List (Region × List UInt8)) :=
  if values.isEmpty then .ok [] else (valuesRegion g u values).map fun data => [(region, data)]

def eventsRegion : List UInt8 := s.examples.events.flatMap EventRecord.bytes

/-- The regions that only units of certain roles have. -/
def roleRegions (g : Group) (u : MeshUnit) : Result (List (Region × List UInt8)) := do
  match u.role with
  | .weight => return [(.weights, ← s.weightsRegion u)]
  | .sum => return []
  | .input => return (.events, s.eventsRegion) :: (← optionalRegion .inputs g u g.inputs)
  | .threshold =>
    let inputs ← optionalRegion .inputs g u g.inputs
    let targets ← optionalRegion .targets g u g.targets
    return (.events, s.eventsRegion) :: inputs ++ targets

/-- The payload of one unit for a stage. -/
def build (u : MeshUnit) (stage : StageDescriptor) : Result UnitPayload := do
  let g ← s.topology.group u.group
  let core ← s.coreRegion u
  let own ← s.roleRegions g u
  let keys ← s.routing.keysFor s.compiled.graph u.id
  pure (.ofRegions u.id u.role (
    [(.network, s.networkRecord.bytes), (.core, core), (.exampleSet, s.examples.set.bytes),
      (.examples, s.examples.examples.flatMap ExampleRecord.bytes)] ++ own ++
    [(.routing, keys.bytes), (.stage, stage.bytes)]))

/-- The payloads of all units of the graph, in its order. -/
def buildAll (stage : StageDescriptor) : Result (List UnitPayload) :=
  s.compiled.graph.units.toList.mapM fun u => s.build u stage

end PayloadSource

end PerceptronMesh

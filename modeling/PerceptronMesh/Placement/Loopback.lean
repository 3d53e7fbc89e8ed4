import PerceptronMesh.Graph.Partition
import PerceptronMesh.Placement.Echo
import PerceptronMesh.Placement.Service

/-!
A placement service that keeps what it is given and computes nothing. A test
answers with results queued for it, or else with the size of the stage.
-/

namespace PerceptronMesh

/-- An accepted update of a region. -/
structure RegionUpdate where
  unit : UnitId
  region : Region
  length : Nat
deriving DecidableEq, Repr

structure Loopback where
  /-- Routing keys reserved for each partition. -/
  keySpace : Nat
  routing : Option RoutingTable := none
  payloads : List UnitPayload := []
  /-- Threshold units of the placed graph. -/
  thresholds : List MeshUnit := []
  /-- Presentations since the last reset. -/
  cursor : UInt32 := 0
  updates : Array RegionUpdate := #[]
  runs : Array StageDescriptor := #[]
  /-- Results for the next tests. -/
  queued : List TestResults := []
  epochsTrained : UInt32 := 0
  placeCalls : Nat := 0
  stopped : Bool := false
deriving DecidableEq

namespace Loopback

def pushTestResults (s : Loopback) (results : TestResults) : Loopback :=
  { s with queued := s.queued ++ [results] }

def payload? (s : Loopback) (unit : UnitId) : Option UnitPayload :=
  s.payloads.find? (·.unit == unit)

/-- A payload put among others in place of one for the same unit. -/
def putPayload (payloads : List UnitPayload) (p : UnitPayload) : List UnitPayload :=
  if payloads.any (·.unit == p.unit) then
    payloads.map fun other => if other.unit = p.unit then p else other
  else payloads ++ [p]

def checkRunning (call : ServiceCall) : Step Loopback Unit := do
  if (← get).stopped then throw (.placement (.stopped call))

/-- The keys of partitions numbered from `index` on: multiples of the key space,
    0 left free. -/
def allocate (keySpace : Nat) : (index : Nat) → List Partition → Result (List (String × UInt32))
  | _, [] => .ok []
  | index, p :: rest => do
    let key := (index + 1) * keySpace
    if Numeric.maxWord32 < key then throw (.placement (.keysExhausted p.name))
    let keys ← allocate keySpace (index + 1) rest
    pure ((p.name, UInt32.ofNat key) :: keys)

def place (g : Graph) : Step Loopback RoutingTable := do
  checkRunning .place
  let keys ← Step.ofResult (allocate (← get).keySpace 0 g.partitions)
  let table := RoutingTable.ofList keys
  modify fun s => { s with
    thresholds := g.unitsWithRole .threshold
    cursor := 0
    placeCalls := s.placeCalls + 1
    routing := some table }
  pure table

def load (payloads : List UnitPayload) : Step Loopback Unit := do
  checkRunning .load
  if (← get).routing.isNone then throw (.placement .loadBeforePlace)
  modify fun s => { s with payloads := payloads.foldl putPayload [] }

def updateRegion (unit : UnitId) (region : Region) (data : List UInt8) : Step Loopback Unit := do
  checkRunning .updateRegion
  match (← get).payload? unit with
  | none => throw (.placement (.notLoaded unit))
  | some p =>
    if !p.hasRegion region then throw (.placement (.noRegion unit region))
    modify fun s => { s with
      payloads := putPayload s.payloads (p.setRegion region data)
      updates := s.updates.push ⟨unit, region, data.length⟩ }

/-- The results of a test: the oldest queued ones, or the epochs trained so far
    and the presentations of the stage. -/
def nextTestResults (stage : StageDescriptor) : Step Loopback TestResults := do
  let s ← get
  match s.queued with
  | results :: rest =>
    set { s with queued := rest }
    pure results
  | [] => pure { epochsTrained := s.epochsTrained, examplesTested := stage.examples }

/-- Subgroups that record, among the Threshold units that are loaded. -/
def writers (s : Loopback) : Except WireError (List Echo.Writer) := do
  let found ← s.thresholds.filterMapM fun u =>
    match s.payload? u.id with
    | none => pure none
    | some payload => Echo.writer? u.group u.subgroup payload
  pure found

def recordOutputs (stage : StageDescriptor) : Step Loopback (Option RecordedOutputs) := do
  let s ← get
  let writers ← Step.ofResult (s.writers.mapError .wire)
  let (recorded, cursor) := Echo.record writers stage s.cursor
  set { s with cursor }
  pure recorded

/-- A loaded unit whose Stage region describes another stage. -/
def staleUnit? (s : Loopback) (stage : StageDescriptor) : Option UnitId :=
  (s.payloads.find? fun p => p.region? .stage != some stage.bytes).map (·.unit)

def run (stage : StageDescriptor) : Step Loopback StageReport := do
  checkRunning .run
  let s ← get
  if s.payloads.isEmpty then throw (.placement .runBeforeLoad)
  if let some unit := s.staleUnit? stage then throw (.placement (.staleStage unit))
  modify fun s => { s with runs := s.runs.push stage }
  let testResults ← match stage.mode with
    | .train => do
      modify fun s => { s with epochsTrained := s.epochsTrained + stage.epochs }
      pure none
    | .test => some <$> nextTestResults stage
  let outputs ← recordOutputs stage
  pure { stageId := stage.id, mode := stage.mode, testResults, outputs }

def stop : Step Loopback Unit := modify fun s => { s with stopped := true }

instance : PlacementService Loopback where
  place := place
  load := load
  updateRegion := updateRegion
  run := run
  stop := stop

end Loopback

end PerceptronMesh

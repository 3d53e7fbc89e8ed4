import PerceptronMesh.Proofs.Network.Refused
import PerceptronMesh.Proofs.Placement.Logged

/-!
A network with its state and marks apart. A network keeps a graph with all that depends on it in
one place, so that much of what its states are to agree on cannot fail. Here every field stands
alone, and the calls change them one after another: a state that was set before a fault stays set
until something resets it.
-/

namespace PerceptronMesh

/-- Goes on after a fault, with the fault for a result. -/
def Step.attempt {σ α : Type} (step : Step σ α) : Step σ (Result α) := fun before =>
  match step before with
  | .ok a later => .ok (.ok a) later
  | .error e later => .ok (.error e) later

structure Controller (σ : Type) where
  settings : Settings
  topology : Topology
  limits : Limits
  recording : Recording
  exampleSet : Option ExampleSet
  weightsFile : Option Path
  stageId : UInt32
  aborted : Bool
  weightsLoaded : Bool
  /-- Whether a weights file was named since the units got their weights. -/
  weightsReloaded : Bool
  coresStale : Bool
  state : ControllerState
  lastOutputs : Option RecordedOutputs
  compiled : Option CompiledGraph
  routing : Option RoutingTable
  service : σ

namespace Controller

variable {σ : Type}

def make (settings : Settings) (configuration : Configuration) (service : σ) : Result (Controller σ) := do
  configuration.limits.validate
  if settings.ticksPerInterval = 0 then throw (.configuration .noTicks)
  let topology ← Topology.make configuration.limits.maxSubgroupUnits
  pure {
    settings, topology, limits := configuration.limits, recording := configuration.recording
    exampleSet := none, weightsFile := none, stageId := 0, aborted := false
    weightsLoaded := false, weightsReloaded := false, coresStale := false
    state := .idle, lastOutputs := none, compiled := none, routing := none, service }

/-- Forgets the graph. A controller that has ended does not become idle again. -/
def dropGraph (c : Controller σ) : Controller σ :=
  let dropped := { c with
    compiled := none, routing := none, weightsReloaded := false, coresStale := false, lastOutputs := none }
  if c.state.isEnded then dropped else { dropped with state := .idle }

def topologyChanged (c : Controller σ) : Controller σ :=
  { c with weightsLoaded := false, exampleSet := c.exampleSet.map ExampleSet.invalidate }.dropGraph

def markCoresStale (c : Controller σ) : Controller σ :=
  if c.state.hasGraph then { c with coresStale := true } else c

def setParams (c : Controller σ) (params : NetworkParams) : Controller σ :=
  let settings := c.settings.apply params
  let changed := { c with settings }
  if settings.unitParamsDiffer c.settings then changed.markCoresStale else changed

def setWeightsFile (c : Controller σ) (path : Path) : Controller σ :=
  let named := { c with weightsFile := some path, weightsLoaded := false }
  if c.state.hasGraph then { named with weightsReloaded := true } else named

def attachExampleSet (c : Controller σ) (s : ExampleSet) : Controller σ :=
  { c.dropGraph with exampleSet := some s }

def setRecording (c : Controller σ) (recording : Recording) : Controller σ :=
  if 0 < c.stageId then c else { c with recording }.dropGraph

def ensureNotEnded : Step (Controller σ) Unit := do
  if (← get).state.isEnded then throw (.configuration .networkEnded)

def onTopology {α : Type} (step : Step Topology α) : Step (Controller σ) α :=
  Step.onPart Controller.topology (fun topology c => { c with topology }) step

def onService {α : Type} (step : Step σ α) : Step (Controller σ) α :=
  Step.onPart Controller.service (fun service c => { c with service }) step

/-- Changes the topology by a step that may be refused on its way. -/
def changeTopology {α : Type} (change : Step Topology α) : Step (Controller σ) α := do
  ensureNotEnded
  let a ← onTopology change
  modify topologyChanged
  pure a

def addGroup (units : Nat) (roles : Roles) (inputFunctions : Option (List InputFunction))
    (outputFunctions : Option (List OutputFunction)) (label : Option String) : Step (Controller σ) GroupId :=
  changeTopology (Topology.addGroupInPlace units roles inputFunctions outputFunctions label)

def addLink (source destination : GroupId) (label : Option String) : Step (Controller σ) Nat :=
  changeTopology (Step.atOnce fun t => t.addLink source destination label)

def setGroupParams (id : GroupId) (params : GroupParams) : Step (Controller σ) Unit := do
  ensureNotEnded
  let g ← Step.ofResult ((← get).topology.group id)
  if !(g.params.eq params) then
    modify fun c => { c with topology := c.topology.modifyGroup id fun g => { g with params } }
    modify markCoresStale

def setExamplesFile (files : FileTree) (path : Path) : Step (Controller σ) Nat := do
  let s := (← get).exampleSet.getD { label := path.fileStem.getD "examples" }
  modify fun c => { c with exampleSet := some s }
  let (count, read) ← Step.ofResult (s.readAt files path)
  modify fun c => { c with exampleSet := some read }
  modify dropGraph
  pure count

section Checks

/-- Steps of the checks before a stage. -/
abbrev Check (σ : Type) := EStateM AbortReason (Controller σ)

def checkSizes : Check σ Unit := do
  let c ← get
  match c.topology.oversizedGroups c.limits.maxGroupUnits with
  | g :: _ => throw (.oversizedGroup g.label g.units c.limits.maxGroupUnits)
  | [] => pure ()

def loadWeights (files : FileTree) : Check σ Unit := do
  let c ← get
  match c.weightsFile with
  | none => throw .noWeightsFile
  | some path =>
    if !c.weightsLoaded then
      match c.topology.readWeightsFile files path with
      | .error e => throw (.weightsFile e)
      | .ok (_, topology) => set { c with topology, weightsLoaded := true }

def compileExamples : Check σ Unit := do
  let c ← get
  match c.exampleSet with
  | none => throw .noExampleSet
  | some s =>
    if !s.loaded then throw .examplesNotLoaded
    match s.compile c.topology with
    | .error e => throw (.exampleCompile e)
    | .ok (compiled, topology) =>
      set { c with exampleSet := some compiled, topology }
      if compiled.compiledCount = 0 then throw .noExamples

def preflight (files : FileTree) : Check σ Unit := do
  checkSizes
  loadWeights files
  compileExamples

end Checks

def payloadSource (c : Controller σ) (compiled : CompiledGraph) (routing : RoutingTable) : Result PayloadSource :=
  match c.exampleSet.bind (·.compiled) with
  | none => .error (.examples .notCompiled)
  | some examples =>
    .ok {
      topology := c.topology, settings := c.settings, recording := c.recording
      compiled, routing, examples }

/-- What a push without a graph is refused with. -/
def noGraph : Error := .reported .graph "no graph loaded"

def descriptor (c : Controller σ) (request : Network.StageRequest) : StageDescriptor :=
  let available := UInt32.ofNat ((c.exampleSet.map (·.examples.length)).getD 0)
  { id := c.stageId, mode := request.mode, updateFunction := request.updateFunction
    reset := request.reset, examples := request.examples.getD available
    epochs := request.epochs }

variable [PlacementService σ]

def compilePlaceLoad (stage : StageDescriptor) : Step (Controller σ) (CompiledGraph × RoutingTable) := do
  let c ← get
  let compiled ← Step.ofResult (compile c.topology c.limits)
  let routing ← onService (PlacementService.place compiled.graph)
  let source ← Step.ofResult (c.payloadSource compiled routing)
  let payloads ← Step.ofResult (source.buildAll stage)
  onService (PlacementService.load payloads)
  pure (compiled, routing)

/-- Builds a graph. Whatever fails on the way, the controller is idle again. -/
def buildGraph (stage : StageDescriptor) : Step (Controller σ) Unit := do
  modify fun c => { c with state := .compiling }
  match ← Step.attempt (compilePlaceLoad stage) with
  | .ok (compiled, routing) =>
    modify fun c => { c with
      compiled := some compiled, routing := some routing
      weightsReloaded := false, coresStale := false, state := .graphBuilt }
  | .error e =>
    modify fun c => { c with state := .idle }
    throw e

def pushRegions (region : Region) (roles : List UnitRole)
    (content : PayloadSource → MeshUnit → Result (List UInt8)) : Step (Controller σ) Unit := do
  let c ← get
  match c.compiled, c.routing with
  | some compiled, some routing =>
    let source ← Step.ofResult (c.payloadSource compiled routing)
    (compiled.graph.units.toList.filter fun u => roles.contains u.role).forM fun u => do
      let data ← Step.ofResult (content source u)
      onService (PlacementService.updateRegion u.id region data)
  | _, _ => throw noGraph

def pushWeights : Step (Controller σ) Unit := do
  pushRegions .weights [.weight] PayloadSource.weightsRegion
  modify fun c => { c with weightsReloaded := false }

def pushCores : Step (Controller σ) Unit := do
  pushRegions .core [.weight, .threshold] PayloadSource.coreRegion
  modify fun c => { c with coresStale := false }

def pushStage (stage : StageDescriptor) : Step (Controller σ) Unit := do
  match (← get).compiled with
  | none => throw noGraph
  | some compiled =>
    compiled.graph.units.toList.forM fun u =>
      onService (PlacementService.updateRegion u.id .stage stage.bytes)

def refreshWeights : Step (Controller σ) Unit := do
  if (← get).weightsReloaded then pushWeights

def refreshCores : Step (Controller σ) Unit := do
  if (← get).coresStale then pushCores

def refreshGraph (stage : StageDescriptor) : Step (Controller σ) Unit := do
  refreshWeights
  refreshCores
  pushStage stage

def prepareGraph (stage : StageDescriptor) : Step (Controller σ) Unit := do
  if (← get).state.hasGraph then refreshGraph stage else buildGraph stage

/-- Runs a stage on the service. The graph stays built even if the run fails. -/
def runOnService (stage : StageDescriptor) : Step (Controller σ) StageReport := do
  modify fun c => { c with state := .running stage.id }
  let result ← Step.attempt (onService (PlacementService.run stage))
  modify fun c => { c with state := .graphBuilt }
  Step.ofResult result

def runChecked (request : Network.StageRequest) : Step (Controller σ) StageOutcome := do
  let stage := (← get).descriptor request
  prepareGraph stage
  let report ← runOnService stage
  modify fun c => { c with lastOutputs := report.outputs }
  modify fun c => { c with stageId := c.stageId + 1 }
  pure (.completed report)

def abort (reason : AbortReason) : Step (Controller σ) StageOutcome := do
  modify fun c => { c with aborted := true }
  pure (.aborted reason)

def runStage (files : FileTree) (request : Network.StageRequest) : Step (Controller σ) StageOutcome := do
  modify fun c => { c with aborted := false }
  if (← get).state.isEnded then abort .ended
  else match preflight files (← get) with
    | .error reason c => do
      set c
      abort reason
    | .ok () c => do
      set c
      runChecked request

def finish : Step (Controller σ) Unit := do
  if !(← get).state.isEnded then
    onService PlacementService.stop
    modify fun c => { c with state := .ended }

end Controller

end PerceptronMesh

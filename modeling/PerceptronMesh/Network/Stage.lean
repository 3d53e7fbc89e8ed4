import PerceptronMesh.Network.Basic
import PerceptronMesh.Network.OutputText
import PerceptronMesh.Payload.Build
import PerceptronMesh.Stage.Outcome
import PerceptronMesh.Weights.Load

/-!
Stages of a network. A stage is run on the graph that is built; one that is not
built yet is compiled, placed and loaded first, and one that is gets the regions
that have become stale.
-/

namespace PerceptronMesh

namespace Network

variable {σ : Type}

/-- Steps of the checks before a stage. A check that fails keeps what those
    before it have read. -/
abbrev Check (σ : Type) := EStateM AbortReason (Network σ)

def checkSizes : Check σ Unit := do
  let n ← get
  match n.topology.oversizedGroups n.limits.maxGroupUnits with
  | g :: _ => throw (.oversizedGroup g.label g.units n.limits.maxGroupUnits)
  | [] => pure ()

def loadWeights (files : FileTree) : Check σ Unit := do
  let n ← get
  match n.weightsFile with
  | none => throw .noWeightsFile
  | some path =>
    if !n.weightsLoaded then
      match n.topology.readWeightsFile files path with
      | .error e => throw (.weightsFile e)
      | .ok (_, topology) => set { n with topology, weightsLoaded := true }

def compileExamples : Check σ Unit := do
  let n ← get
  match n.exampleSet with
  | none => throw .noExampleSet
  | some s =>
    if !s.loaded then throw .examplesNotLoaded
    match s.compile n.topology with
    | .error e => throw (.exampleCompile e)
    | .ok (compiled, topology) =>
      set { n with exampleSet := some compiled, topology }
      if compiled.compiledCount = 0 then throw .noExamples

/-- All checks in order. -/
def preflight (files : FileTree) : Check σ Unit := do
  checkSizes
  loadWeights files
  compileExamples

/-- A step of the placement service. -/
def onService {α : Type} (step : Step σ α) : Step (Network σ) α :=
  Step.onPart Network.service (fun service n => { n with service }) step

/-- What the payloads of a graph are made from. -/
def payloadSource (n : Network σ) (compiled : CompiledGraph) (routing : RoutingTable) :
    Result PayloadSource :=
  match n.exampleSet.bind (·.compiled) with
  | none => .error (.examples .notCompiled)
  | some examples =>
    .ok {
      topology := n.topology, settings := n.settings, recording := n.recording
      compiled, routing, examples }

variable [PlacementService σ]

/-- Compiles, places and loads a graph. -/
def buildGraph (stage : StageDescriptor) : Step (Network σ) Unit := do
  let n ← get
  let compiled ← Step.ofResult (compile n.topology n.limits)
  let routing ← onService (PlacementService.place compiled.graph)
  let source ← Step.ofResult (n.payloadSource compiled routing)
  let payloads ← Step.ofResult (source.buildAll stage)
  onService (PlacementService.load payloads)
  modify fun n => { n with built := some { compiled, routing } }

/-- Writes one region of every unit of certain roles. -/
def pushRegions (graph : BuiltGraph) (region : Region) (roles : List UnitRole)
    (content : PayloadSource → MeshUnit → Result (List UInt8)) : Step (Network σ) Unit := do
  let source ← Step.ofResult ((← get).payloadSource graph.compiled graph.routing)
  (graph.compiled.graph.units.toList.filter fun u => roles.contains u.role).forM fun u => do
    let data ← Step.ofResult (content source u)
    onService (PlacementService.updateRegion u.id region data)

/-- Changes the built graph, if there is one. -/
def modifyBuilt (change : BuiltGraph → BuiltGraph) : Step (Network σ) Unit :=
  modify fun n => { n with built := n.built.map change }

def pushWeights (graph : BuiltGraph) : Step (Network σ) Unit := do
  pushRegions graph .weights [.weight] PayloadSource.weightsRegion
  modifyBuilt fun graph => { graph with weightsStale := false }

/-- Writes the Core regions that hold parameters or criteria. -/
def pushCores (graph : BuiltGraph) : Step (Network σ) Unit := do
  pushRegions graph .core [.weight, .threshold] PayloadSource.coreRegion
  modifyBuilt fun graph => { graph with coresStale := false }

def pushStage (graph : BuiltGraph) (stage : StageDescriptor) : Step (Network σ) Unit :=
  graph.compiled.graph.units.toList.forM fun u =>
    onService (PlacementService.updateRegion u.id .stage stage.bytes)

/-- Makes the loaded units ready for a stage. -/
def prepareGraph (stage : StageDescriptor) : Step (Network σ) Unit := do
  match (← get).built with
  | none => buildGraph stage
  | some graph =>
    if graph.weightsStale then pushWeights graph
    if graph.coresStale then pushCores graph
    pushStage graph stage

/-- What a caller asks of a stage. -/
structure StageRequest where
  mode : StageMode
  updateFunction : UpdateFunction
  reset : Bool
  /-- Presentations of an epoch; all examples if absent. -/
  examples : Option UInt32
  epochs : UInt32
deriving DecidableEq, Repr

/-- The description of the next stage. -/
def descriptor (n : Network σ) (request : StageRequest) : StageDescriptor :=
  let available := UInt32.ofNat ((n.exampleSet.map (·.examples.length)).getD 0)
  { id := n.stageId, mode := request.mode, updateFunction := request.updateFunction
    reset := request.reset, examples := request.examples.getD available
    epochs := request.epochs }

/-- Runs a stage that passed the checks. -/
def runChecked (request : StageRequest) : Step (Network σ) StageOutcome := do
  let stage := (← get).descriptor request
  prepareGraph stage
  let report ← onService (PlacementService.run stage)
  modifyBuilt fun graph => { graph with lastOutputs := report.outputs }
  modify fun n => { n with stageId := n.stageId + 1 }
  pure (.completed report)

def abort (reason : AbortReason) : Step (Network σ) StageOutcome := do
  modify fun n => { n with aborted := true }
  pure (.aborted reason)

def runStage (files : FileTree) (request : StageRequest) : Step (Network σ) StageOutcome := do
  modify fun n => { n with aborted := false }
  if (← get).ended then abort .ended
  else match preflight files (← get) with
    | .error reason n => do
      set n
      abort reason
    | .ok () n => do
      set n
      runChecked request

/-- Trains on the whole example set. -/
def train (files : FileTree) (updateFunction : Option UpdateFunction) (updates : Option UInt32) :
    Step (Network σ) StageOutcome := do
  let settings := (← get).settings
  runStage files {
    mode := .train
    updateFunction := updateFunction.getD settings.updateFunction
    reset := true
    examples := none
    epochs := updates.getD settings.updates }

/-- Tests for one epoch. -/
def test (files : FileTree) (examples : Option UInt32) (reset : Bool) :
    Step (Network σ) StageOutcome := do
  let updateFunction := (← get).settings.updateFunction
  runStage files { mode := .test, updateFunction, reset, examples, epochs := 1 }

/-- Stops the service. A network that has ended stays as it is. -/
def finish : Step (Network σ) Unit := do
  if !(← get).ended then
    onService PlacementService.stop
    modify fun n => { n with ended := true }

omit [PlacementService σ] in
/-- Whether there are outputs to write: they are recorded, the last stage was not
    aborted, and one ran on the built graph. -/
def outputsToWrite (n : Network σ) : Option RecordedOutputs :=
  if !n.recording.outputs || n.aborted then none else n.lastOutputs

omit [PlacementService σ] in
/-- Writes the last recorded outputs to a file, if there are any. Text that was
    written before a fault stays in the file. -/
def writeOutputs (n : Network σ) (path : Path) : Step FileTree Bool := do
  match n.outputsToWrite with
  | none => pure false
  | some recorded =>
    match n.exampleSet with
    | none => throw (.examples .noSet)
    | some s =>
      let location ← Step.ofResult (((← get).writable path).mapError .file)
      let writing := outputText n.topology s n.settings recorded
      modify fun files => files.put location writing.text.toUTF8
      let _ ← Step.ofResult writing.result
      pure true

end Network

end PerceptronMesh

import PerceptronMesh.Compile.Basic
import PerceptronMesh.Example.Set
import PerceptronMesh.Network.State
import PerceptronMesh.Placement.Loopback

/-!
Networks and the calls that configure them. A change of the topology drops the
built graph, and a change of weights or parameters marks what its units hold as
stale.
-/

namespace PerceptronMesh

/-- A graph that was placed and loaded. -/
structure BuiltGraph where
  compiled : CompiledGraph
  routing : RoutingTable
  /-- Whether the weights were read again since the units got theirs. -/
  weightsStale : Bool := false
  /-- Whether parameters changed that units hold in their Core regions. -/
  coresStale : Bool := false
  /-- Outputs that the last stage on this graph recorded. -/
  lastOutputs : Option RecordedOutputs := none
deriving DecidableEq

/-- A network over a placement service. -/
structure Network (σ : Type) where
  settings : Settings
  topology : Topology
  limits : Limits
  recording : Recording
  exampleSet : Option ExampleSet := none
  weightsFile : Option Path := none
  /-- Number of the next stage. -/
  stageId : UInt32 := 0
  /-- Whether the last stage was aborted. -/
  aborted : Bool := false
  weightsLoaded : Bool := false
  built : Option BuiltGraph := none
  ended : Bool := false
  service : σ

namespace Network

variable {σ : Type}

/-- A network with only the bias group. -/
def make (settings : Settings) (configuration : Configuration) (service : σ) :
    Result (Network σ) := do
  configuration.limits.validate
  if settings.ticksPerInterval = 0 then throw (.configuration .noTicks)
  let topology ← Topology.make configuration.limits.maxSubgroupUnits
  pure {
    settings, topology, service
    limits := configuration.limits
    recording := configuration.recording }

/-- A network over a loopback. -/
def loopback (settings : Settings) (configuration : Configuration) : Result (Network Loopback) :=
  make settings configuration { keySpace := configuration.limits.keySpaceSize }

def state (n : Network σ) : ControllerState :=
  if n.ended then .ended else if n.built.isSome then .graphBuilt else .idle

/-- The last recorded outputs, as long as their graph is kept. -/
def lastOutputs (n : Network σ) : Option RecordedOutputs := n.built.bind (·.lastOutputs)

def ensureNotEnded (n : Network σ) : Result Unit :=
  if n.ended then .error (.configuration .networkEnded) else .ok ()

def dropGraph (n : Network σ) : Network σ := { n with built := none }

/-- The network with another topology. Weights and examples have to be taken
    over again. -/
def changeTopology (n : Network σ) (topology : Topology) : Network σ :=
  { n.dropGraph with
    topology
    weightsLoaded := false
    exampleSet := n.exampleSet.map ExampleSet.invalidate }

/-- Marks the Core regions of a graph that still runs stages. -/
def markCoresStale (n : Network σ) : Network σ :=
  if n.ended then n
  else { n with built := n.built.map fun graph => { graph with coresStale := true } }

def addGroup (n : Network σ) (units : Nat) (roles : Roles)
    (inputFunctions : Option (List InputFunction)) (outputFunctions : Option (List OutputFunction))
    (label : Option String) : Result (GroupId × Network σ) := do
  n.ensureNotEnded
  let (id, topology) ← n.topology.addGroup units roles inputFunctions outputFunctions label
  pure (id, n.changeTopology topology)

def addLink (n : Network σ) (source destination : GroupId) (label : Option String) :
    Result (Nat × Network σ) := do
  n.ensureNotEnded
  let (id, topology) ← n.topology.addLink source destination label
  pure (id, n.changeTopology topology)

/-- Replaces a group's own parameters. -/
def setGroupParams (n : Network σ) (id : GroupId) (params : GroupParams) : Result (Network σ) := do
  n.ensureNotEnded
  let g ← n.topology.group id
  if g.params.eq params then pure n
  else
    let topology := n.topology.modifyGroup id fun g => { g with params }
    pure { n with topology }.markCoresStale

/-- Changes the settings that are given. -/
def setParams (n : Network σ) (params : NetworkParams) : Network σ :=
  let settings := n.settings.apply params
  let changed := { n with settings }
  if settings.unitParamsDiffer n.settings then changed.markCoresStale else changed

def attachExampleSet (n : Network σ) (s : ExampleSet) : Network σ :=
  { n.dropGraph with exampleSet := some s }

/-- The attached set, or a new one named after a file. -/
def exampleSetFor (n : Network σ) (path : Path) : ExampleSet :=
  n.exampleSet.getD { label := path.fileStem.getD "examples" }

/-- Reads an examples file into the attached set. A set that had to be made for
    it stays attached even if the file cannot be read. -/
def setExamplesFile (files : FileTree) (path : Path) : Step (Network σ) Nat := do
  let s := (← get).exampleSetFor path
  modify fun n => { n with exampleSet := some s }
  let (count, read) ← Step.ofResult (s.readAt files path)
  modify fun n => { n.dropGraph with exampleSet := some read }
  pure count

/-- Names the file that the next stage reads weights from. -/
def setWeightsFile (n : Network σ) (path : Path) : Network σ :=
  { n with
    weightsFile := some path
    weightsLoaded := false
    built := if n.ended then n.built
      else n.built.map fun graph => { graph with weightsStale := true } }

/-- Chooses what is recorded, before the first stage. -/
def setRecording (n : Network σ) (recording : Recording) : Network σ :=
  if 0 < n.stageId then n else { n.dropGraph with recording }

end Network

end PerceptronMesh

import PerceptronMesh.Network.Stage
import PerceptronMesh.NetworkFile.Basic

/-!
Networks made from network files, and runs of their stages.
-/

namespace PerceptronMesh

namespace NetworkFile

variable {σ : Type}

def addGroup (n : Network σ) (entry : GroupEntry) : Result (Network σ) := do
  let (id, n) ← n.addGroup entry.units entry.roles entry.inputFunctions entry.outputFunctions
    (some entry.label)
  match entry.params with
  | some params => n.setGroupParams id params
  | none => pure n

/-- The group with a label, which a link has to know. -/
def groupNamed (n : Network σ) (label : String) : Result GroupId :=
  match n.topology.groupByLabel? label with
  | some g => .ok g.id
  | none => .error (.topology (.unknownGroup label))

def addLink (n : Network σ) (entry : LinkEntry) : Result (Network σ) := do
  let source ← groupNamed n entry.source
  let destination ← groupNamed n entry.destination
  let (_, n) ← n.addLink source destination entry.label
  pure n

def attachExamples (n : Network σ) (files : FileTree) (path : Path) : Result (Network σ) :=
  match Network.setExamplesFile files path n with
  | .ok _ n => .ok n
  | .error e _ => .error e

/-- The network that a file describes. Examples are read at once, weights with
    the first stage. -/
def build (file : NetworkFile) (files : FileTree) (configuration : Configuration) (service : σ) :
    Result (Network σ) := do
  let n ← Network.make file.settings.settings configuration service
  let n := file.recording.elim n n.setRecording
  let n ← file.groups.foldlM addGroup n
  let n ← file.links.foldlM addLink n
  let n ← file.examplesFile.elim (pure n) fun path =>
    attachExamples n files (file.resolve path)
  pure (file.weightsFile.elim n fun path => n.setWeightsFile (file.resolve path))

end NetworkFile

/-- A network and the files that its stages read and write. -/
structure Session (σ : Type) where
  network : Network σ
  files : FileTree

namespace Session

variable {σ : Type} [PlacementService σ]

def onNetwork {α : Type} (step : Step (Network σ) α) : Step (Session σ) α :=
  Step.onPart Session.network (fun network s => { s with network }) step

def onFiles {α : Type} (step : Step FileTree α) : Step (Session σ) α :=
  Step.onPart Session.files (fun files s => { s with files }) step

/-- Runs a stage and writes what it recorded. -/
def runStage (file : NetworkFile) (entry : StageEntry) : Step (Session σ) StageOutcome := do
  let files := (← get).files
  let outcome ← onNetwork (match entry with
    | .train updateFunction updates _ => Network.train files updateFunction updates
    | .test examples reset _ => Network.test files examples reset)
  if let some path := entry.outputFile? then
    let _ ← onFiles ((← get).network.writeOutputs (file.resolve path))
  pure outcome

/-- Runs all stages of a file. An aborted stage does not keep the next one from
    running; a fault does. -/
def runStages (file : NetworkFile) : Step (Session σ) (List StageOutcome) :=
  file.stages.mapM (runStage file)

end Session

end PerceptronMesh

import PerceptronMesh.Files.Path
import PerceptronMesh.Settings.Learning
import PerceptronMesh.Settings.Limits
import PerceptronMesh.Topology.Role

/-!
Network files: the groups and links of a network, the files with its examples and
weights, and the stages to run. Groups go by their labels.
-/

namespace PerceptronMesh

/-- Network-wide settings. -/
structure SettingsEntry where
  kind : NetworkKind := .feedForward
  intervals : Nat := 1
  ticksPerInterval : Nat := 1
  updateFunction : UpdateFunction := .dougsMomentum
  params : NetworkParams := {}
deriving DecidableEq, Repr

structure GroupEntry where
  label : String
  units : Nat
  roles : Roles
  inputFunctions : Option (List InputFunction) := none
  outputFunctions : Option (List OutputFunction) := none
  params : Option GroupParams := none
deriving DecidableEq, Repr

structure LinkEntry where
  source : String
  destination : String
  label : Option String := none
deriving DecidableEq, Repr

/-- A stage, and the file that its outputs are written to. -/
inductive StageEntry where
  | train (updateFunction : Option UpdateFunction) (updates : Option UInt32)
      (outputFile : Option Path)
  | test (examples : Option UInt32) (reset : Bool) (outputFile : Option Path)
deriving DecidableEq, Repr

def StageEntry.outputFile? : StageEntry → Option Path
  | .train _ _ file => file
  | .test _ _ file => file

structure NetworkFile where
  settings : SettingsEntry := {}
  groups : List GroupEntry
  links : List LinkEntry := []
  examplesFile : Option Path := none
  weightsFile : Option Path := none
  /-- Takes the place of the configured recording. -/
  recording : Option Recording := none
  stages : List StageEntry := []
  /-- Where relative paths start. -/
  directory : Path := .ofString ""
deriving DecidableEq, Repr

namespace NetworkFile

/-- A path of the file as seen from the working directory. -/
def resolve (file : NetworkFile) (path : Path) : Path := file.directory.join path

end NetworkFile

/-- The settings that an entry asks for. -/
def SettingsEntry.settings (entry : SettingsEntry) : Settings :=
  ({ kind := entry.kind, intervals := entry.intervals, ticksPerInterval := entry.ticksPerInterval
     updateFunction := entry.updateFunction } : Settings).apply entry.params

end PerceptronMesh

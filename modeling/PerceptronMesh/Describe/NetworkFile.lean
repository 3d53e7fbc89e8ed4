import PerceptronMesh.Describe.Example
import PerceptronMesh.Describe.Network
import PerceptronMesh.NetworkFile.Session

/-!
JSON descriptions of configurations, of network files and of what is made of them.
-/

namespace PerceptronMesh

def Path.describe (p : Path) : Json := .string p.text

def Configuration.describe (c : Configuration) : Json := .object c.members

def SettingsEntry.describe (entry : SettingsEntry) : Json :=
  let p := entry.params
  .object [
    ("net_type", .string entry.kind.name), ("intervals", .nat entry.intervals),
    ("ticks_per_interval", .nat entry.ticksPerInterval),
    ("update_function", .string entry.updateFunction.name),
    ("num_updates", .option (fun n => .nat n.toNat) p.updates),
    ("floats", describeReals? [p.trainCriterion, p.testCriterion, p.learningRate, p.weightDecay,
      p.momentum])]

def GroupEntry.describe (entry : GroupEntry) : Json := .object [
  ("label", .string entry.label), ("units", .nat entry.units), ("roles", entry.roles.describe),
  ("input_funcs", .option (.list fun f => .string f.name) entry.inputFunctions),
  ("output_funcs", .option (.list fun f => .string f.name) entry.outputFunctions),
  ("params", .option (fun p => describeReals? [p.learningRate, p.weightDecay, p.momentum,
    p.trainCriterion, p.testCriterion]) entry.params)]

def LinkEntry.describe (entry : LinkEntry) : Json :=
  .array [.string entry.source, .string entry.destination, .option .string entry.label]

def StageEntry.describe (entry : StageEntry) : Json :=
  let file := ("output_file", Json.option Path.describe entry.outputFile?)
  let number := Json.option fun n : UInt32 => .nat n.toNat
  match entry with
  | .train updateFunction updates _ => .object [("train", .object [
      ("update_function", .option (fun f => .string f.name) updateFunction),
      ("num_updates", number updates), file])]
  | .test examples reset _ => .object [("test", .object [
      ("num_examples", number examples), ("reset_examples", .bool reset), file])]

def NetworkFile.describe (file : NetworkFile) : Json := .object [
  ("params", file.settings.describe), ("groups", .list GroupEntry.describe file.groups),
  ("links", .list LinkEntry.describe file.links),
  ("examples_file", .option Path.describe file.examplesFile),
  ("weights_file", .option Path.describe file.weightsFile),
  ("recording", .option Recording.toJson file.recording),
  ("stages", .list StageEntry.describe file.stages), ("base_dir", file.directory.describe)]

namespace Network

/-- What was built from a network file. -/
def describeBuilt {σ : Type} (n : Network σ) : Json := .object [
  ("groups", .list Group.describe n.topology.groups),
  ("links", .list Link.toJson n.topology.links),
  ("examples", .option ExampleSet.describe n.exampleSet),
  ("weights_file", .option Path.describe n.weightsFile), ("recording", n.recording.toJson)]

/-- Where a network is after its stages. -/
def describeEnd (n : Network Loopback) : Json :=
  .array [.string n.state.text, .nat n.stageId.toNat, n.service.describeRuns]

end Network

end PerceptronMesh

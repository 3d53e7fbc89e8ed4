import PerceptronMesh.Describe.Topology
import PerceptronMesh.Network.Stage

/-!
JSON descriptions of payloads, of what stages record and of networks.
-/

namespace PerceptronMesh

def UnitPayload.describe (p : UnitPayload) : Json := .object [
  ("unit", .string p.unit.text), ("role", .string p.role.name), ("size", .nat p.size),
  ("region_list", .list (fun r => .string r.name) p.regionList),
  ("regions", .object (p.regions.map fun (region, data) => (region.text, describeBytes data)))]

def RoutingTable.toJson (t : RoutingTable) : Json :=
  .object (t.entries.map fun (name, key) => (name, .nat key.toNat))

def TickRecord.describe (t : TickRecord) : Json :=
  describeWords [t.epoch, t.example_, t.event, t.tick]

def RecordedOutputs.describe (r : RecordedOutputs) : Json := .object [
  ("ticks", .list TickRecord.describe r.ticks), ("empty", .bool r.isEmpty),
  ("outputs", .list (fun o => .object [
    ("group", .nat o.group), ("subgroup", .nat o.subgroup), ("units", .nat o.units),
    ("num_ticks", .nat o.ticks), ("data", describeBytes o.data)]) r.outputs)]

def StageOutcome.describe (o : StageOutcome) : Json := .object [
  ("json", o.toJson), ("text", .option (fun reason => .string reason.text) o.abortReason?),
  ("completed", .bool o.isCompleted),
  ("outputs", .option RecordedOutputs.describe (o.report?.bind (·.outputs)))]

/-- An outcome without what was recorded. -/
def StageOutcome.summary (o : StageOutcome) : Json := .object [
  ("text", .option (fun reason => .string reason.text) o.abortReason?), ("json", o.toJson),
  ("completed", .bool o.isCompleted), ("report", .bool o.report?.isSome)]

def ControllerState.toJson (s : ControllerState) : Json :=
  .object (("state", .string s.name) :: s.stage?.toList.map fun n => ("stage", .nat n.toNat))

/-- A state with its text and what follows from it. -/
def ControllerState.describe (s : ControllerState) : Json := .object [
  ("json", s.toJson), ("text", .string s.text), ("has_graph", .bool s.hasGraph),
  ("ended", .bool s.isEnded)]

def StageReport.describe (r : StageReport) : Json := .object [
  ("json", r.toJson), ("outputs", .option RecordedOutputs.describe r.outputs)]

namespace Loopback

/-- Counts of placements, loaded units, updates and runs. -/
def counts (s : Loopback) : Json :=
  describeNats [s.placeCalls, s.payloads.length, s.updates.size, s.runs.size]

def describeRuns (s : Loopback) : Json := .list StageDescriptor.toJson s.runs.toList

/-- Count and bytes of updates from a given one on, for every region updated. -/
def describeUpdates (s : Loopback) (from_ : Nat) : Json :=
  .object (Region.all.filterMap fun region =>
    match (s.updates.toList.drop from_).filter (·.region = region) with
    | [] => none
    | own => some (region.text, describeNats [own.length, Numeric.total (own.map (·.length))]))

end Loopback

def BuiltGraph.describe (b : BuiltGraph) : Json := .object [
  ("result", b.compiled.report.toJson), ("stats", b.compiled.graph.stats.toJson),
  ("checksum", .string (checksumText b.compiled.graph.checksum)),
  ("routes", .nat b.routing.size)]

namespace Network

variable {σ : Type}

/-- A network with its groups. -/
def describe (n : Network σ) : Json := .object [
  ("settings", n.settings.describe), ("limits", n.limits.toJson),
  ("recording", n.recording.toJson), ("groups", .list Group.describe n.topology.groups),
  ("state", n.state.toJson)]

/-- The state of a network but for its topology and its service. -/
def members (n : Network σ) : List (String × Json) := [
  ("state", n.state.toJson), ("text", .string n.state.text), ("stage_id", .nat n.stageId.toNat),
  ("aborted", .bool n.aborted), ("weights_loaded", .bool n.weightsLoaded),
  ("graph_ready", .bool n.state.hasGraph), ("built", .bool n.built.isSome),
  ("routed", .bool n.built.isSome),
  ("weights_file", .option (fun path => .string path.text) n.weightsFile),
  ("examples", .option (fun s => .array [.string s.label, .nat s.examples.length,
    .bool s.loaded, .bool s.compiled.isSome]) n.exampleSet),
  ("recording", .list .bool [n.recording.testResults, n.recording.outputs,
    n.recording.lastTickOnly]),
  ("ticks", .option (fun r => .nat r.ticks.length) n.lastOutputs)]

end Network

end PerceptronMesh

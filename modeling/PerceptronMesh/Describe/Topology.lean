import PerceptronMesh.Describe.Number
import PerceptronMesh.Settings.Limits
import PerceptronMesh.Topology.Basic

/-!
JSON descriptions of groups, links and settings.
-/

namespace PerceptronMesh

def Roles.describe (roles : Roles) : Json := .list (fun role => .string role.name) roles.toList

def GroupParams.describe (p : GroupParams) : Json :=
  describeReals? [p.learningRate, p.weightDecay, p.momentum, p.trainCriterion, p.testCriterion]

/-- Weights by increasing identifier of the linked group. -/
def Group.describeWeights (g : Group) : Json :=
  .list (fun (id, values) => .array [.nat id, .list (·.describe) values.toList])
    (g.weights.mergeSort fun a b => a.1 ≤ b.1)

def Group.describe (g : Group) : Json := .object [
  ("id", .nat g.id), ("label", .string g.label), ("units", .nat g.units),
  ("roles", g.roles.describe), ("roles_text", .string g.roles.text),
  ("input_funcs", .list (fun f => .string f.name) g.inputSlots),
  ("num_in_procs", .nat g.inputFunctions.length), ("in_integr_en", .bool g.integratesInput),
  ("output_funcs", .list (fun f => .string f.name) g.outputSlots),
  ("num_out_procs", .nat g.outputFunctions.length), ("out_integr_en", .bool g.integratesOutput),
  ("hard_clamp_en", .bool g.hardClamps), ("criterion", .string g.criterion.name),
  ("error_fn", .string g.errorFunction.name), ("soft_clamp", g.softClamp.describe),
  ("weak_clamp", g.weakClamp.describe), ("init_net", g.initNet.describe),
  ("init_output", g.initOutput.describe), ("params", g.params.describe),
  ("write_out", .bool g.writeOut), ("write_blk", .nat g.writeBlock),
  ("is_first_out", .bool g.isFirstOutput), ("subgroups", .nat g.subgroups),
  ("subunits", describeNats g.subunits), ("links_from", describeNats g.linksFrom),
  ("weights", g.describeWeights), ("inputs", describeReals? g.inputs.toList),
  ("targets", describeReals? g.targets.toList)]

def Link.toJson (l : Link) : Json := .object [
  ("id", .nat l.id), ("from", .nat l.source), ("to", .nat l.destination),
  ("label", .string l.label)]

namespace Topology

def describeLink (l : Link) : Json :=
  .array [l.toJson, .bool l.isRecurrent, .string (linkText l.id)]

/-- The labels of groups. -/
def describeLabels (groups : List Group) : Json := .list (fun g => .string g.label) groups

def describe (t : Topology) : Json := .object [
  ("bias", .nat bias), ("max_subgroup_units", .nat t.maxSubgroupUnits),
  ("output_chain", describeNats t.outputChain), ("inputs", describeLabels t.inputGroups),
  ("outputs", describeLabels t.outputGroups), ("total_subgroups", .nat t.totalSubgroups),
  ("expected_link_count", .nat t.expectedLinkCount)]

end Topology

def Settings.describe (s : Settings) : Json := .object [
  ("net_type", .string s.kind.name), ("ticks_per_interval", .nat s.ticksPerInterval),
  ("intervals", .nat s.intervals), ("update_function", .string s.updateFunction.name),
  ("num_updates", .nat s.updates.toNat), ("learning_rate", s.learningRate.describe),
  ("weight_decay", s.weightDecay.describe), ("momentum", s.momentum.describe),
  ("train_group_crit", describeReal? s.trainCriterion),
  ("test_group_crit", describeReal? s.testCriterion),
  ("global_max_ticks", .nat s.globalMaxTicks.toNat)]

def Limits.toJson (l : Limits) : Json := .object [
  ("max_subgroup_units", .nat l.maxSubgroupUnits), ("max_sum_links", .nat l.maxSumLinks),
  ("max_group_units", .nat l.maxGroupUnits), ("key_space_size", .nat l.keySpaceSize)]

def Recording.toJson (r : Recording) : Json := .object [
  ("rec_test_results", .bool r.testResults), ("rec_outputs", .bool r.outputs),
  ("rec_example_last_tick_only", .bool r.lastTickOnly)]

def Configuration.members (c : Configuration) : List (String × Json) :=
  [("limits", c.limits.toJson), ("recording", c.recording.toJson)]

end PerceptronMesh

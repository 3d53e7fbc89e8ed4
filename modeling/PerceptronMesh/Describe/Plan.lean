import PerceptronMesh.Compile.Basic
import PerceptronMesh.Describe.Number
import PerceptronMesh.Graph.Partition

/-!
JSON descriptions of plans, of what units wait for and of what is wired to them.
-/

namespace PerceptronMesh

def Subgroup.describe (sg : Subgroup) : Json :=
  describeNats [sg.group, sg.subgroup, sg.units, sg.index]

namespace TreeLayout

def describeNode (t : TreeLayout) (node : Nat) : Json := .object [
  ("parent", .option .nat (t.parent node)), ("children", describeNats (t.children node)),
  ("leaves", describeNats (t.leavesOf node)), ("in_degree", .nat (t.inDegree node)),
  ("depth", .nat (t.depth node)),
  ("counts", describeNats [t.childCount node, t.leafCount node])]

/-- The figures of a tree, with its nodes one by one if asked for. -/
def members (t : TreeLayout) (nodewise : Bool) : List (String × Json) := [
  ("nodes", .nat t.nodes), ("leaves", .nat t.leaves), ("max_links", .nat t.maxLinks)] ++
  if nodewise then [("layout", .list t.describeNode (List.range t.nodes))] else []

end TreeLayout

namespace Plan

def describeSubgroup (p : Plan) (sg : Subgroup) : Json := .object [
  ("sg", sg.describe), ("last_output", .bool (p.isLastOutput sg)),
  ("siblings", .nat (p.siblingCount sg)),
  ("pred", .option Subgroup.describe (p.chainPredecessor sg)),
  ("succ", .option Subgroup.describe (p.chainSuccessor sg))]

def describePair (pair : Subgroup × Subgroup) : Json :=
  .array [pair.1.describe, pair.2.describe]

def members (p : Plan) : List (String × Json) := [
  ("total", .nat p.total), ("groups", .nat p.groupCount),
  ("subgroups", .list p.describeSubgroup p.subgroups),
  ("first_group", .nat p.firstGroup), ("output_chain", describeNats p.outputChain),
  ("stop_chain", .list Subgroup.describe p.stopChain),
  ("last_output", .option Subgroup.describe p.lastOutput),
  ("pairs", .nat p.weightPairs.length),
  ("pair_ends", .array ([p.weightPairs.head?, p.weightPairs[1]?, p.weightPairs.getLast?].map
    (.option describePair))),
  ("tree", describeNats [p.tree.nodes, p.tree.leaves, p.tree.maxLinks])]

/-- A subgroup by its number, and all subgroups of its group. -/
def describeLookup (p : Plan) (group : GroupId) (subgroup : Nat) : Json := .object [
  ("subgroup", .option Subgroup.describe (p.subgroup? group subgroup)),
  ("count", .nat (p.subgroupCount group)),
  ("all", .list Subgroup.describe (p.subgroupsOf group))]

/-- What a unit waits for. -/
def describeScore (p : Plan) (u : MeshUnit) : Json :=
  let e := p.sumExpectations u
  .object [
    ("unit", .string u.id.text),
    ("senders", describeNats (Category.all.map (p.expectedSenders u))),
    ("packets", describeNats (Category.all.map fun c => (p.expectedPackets u c).toNat)),
    ("crit", .nat (p.expectedDecisions u)),
    ("sum", if u.role = .sum then
      describeNats [e.forward, e.backprop, e.linkDeltas.toNat, e.syncs, e.siblings] else .null)]

end Plan

def Partition.toJson (p : Partition) : Json := .object [
  ("name", .string p.name), ("source", .string p.source.text),
  ("category", .string p.category.name), ("fan_out", .nat p.fanOut)]

def Mismatch.toJson (m : Mismatch) : Json := .object [
  ("unit", .string m.unit.text), ("category", .string m.category.name),
  ("packets", .bool m.packets), ("expected", .nat m.expected), ("wired", .nat m.wired)]

/-- One end of an edge, with the traffic along it. -/
structure EdgeEnd where
  unit : String
  packets : Nat
  partition : String

namespace EdgeEnd

/-- Whether one end comes before another: by unit, packets and partition. -/
def before (a b : EdgeEnd) : Bool :=
  if a.unit ≠ b.unit then a.unit < b.unit
  else if a.packets ≠ b.packets then a.packets < b.packets
  else a.partition ≤ b.partition

def describe (e : EdgeEnd) : Json := .array [.string e.unit, .nat e.packets, .string e.partition]

/-- The ends of edges in sorted order. -/
def describeAll (side : Edge → UnitId) (edges : List Edge) : Json :=
  .list describe ((edges.map fun e => ⟨(side e).text, e.packets.toNat, e.partition⟩).mergeSort before)

end EdgeEnd

/-- The edges of a unit, by direction and category. -/
def Graph.describeEdges (g : Graph) (id : UnitId) : Json := .object [
  ("in", .list (fun c => EdgeEnd.describeAll Edge.source (g.inEdges id c)) Category.all),
  ("out", .list (fun c => EdgeEnd.describeAll Edge.target (g.outEdges id c)) Category.all)]

/-- What a unit waits for, with its own description and the names of its traffic. -/
def Plan.describeUnit (p : Plan) (u : MeshUnit) : Json := .object [
  ("score", p.describeScore u), ("weight", describeNats (p.weightExpectations u)),
  ("json", u.toJson), ("self_pair", .bool u.isSelfPair),
  ("names", .list (fun c => .string (u.partitionName c)) Category.all)]

def CompileReport.describe (r : CompileReport) : Json := .object [
  ("json", r.toJson), ("text", .string r.text), ("total", .nat r.totalUnits),
  ("has", .bool r.hasUnits)]

namespace CompiledGraph

/-- The figures of a compiled graph. -/
def members (c : CompiledGraph) : List (String × Json) := [
  ("result", c.report.toJson), ("text", .string c.report.text),
  ("total", .nat c.report.totalUnits), ("stats", c.graph.stats.toJson),
  ("checksum", .string (checksumText c.graph.checksum)),
  ("audit", .nat (c.plan.audit c.graph).length)]

/-- The lists behind the figures, by name. -/
def part? (c : CompiledGraph) : String → Option Json
  | "graph" => some c.graph.toJson
  | "units" => some (.list (fun u => .string u.id.text) c.graph.units.toList)
  | "partitions" => some (.list Partition.toJson c.graph.partitions)
  | "scores" => some (.list c.plan.describeScore c.graph.units.toList)
  | _ => none

/-- The figures with some of the lists and the edges of some units. -/
def describe (c : CompiledGraph) (parts units : List String) : Json :=
  .object (c.members ++ parts.filterMap (fun name => (c.part? name).map fun part => (name, part)) ++
    if units.isEmpty then []
    else [("asked", .object (units.map fun id => (id, c.graph.describeEdges (.ofText id))))])

end CompiledGraph

end PerceptronMesh

import PerceptronMesh.Compile.Report
import PerceptronMesh.Compile.Wiring
import PerceptronMesh.Scoreboard.Audit

/-!
Compilation of a topology into a graph of units whose edges match all
scoreboards.
-/

namespace PerceptronMesh

structure CompiledGraph where
  plan : Plan
  graph : Graph
  report : CompileReport
deriving DecidableEq, Repr

/-- A graph in the making, and what was counted on the way. -/
structure Draft where
  graph : Graph := .empty
  report : CompileReport := {}

namespace Draft

/-- Adds units one after another and counts each. -/
def addUnits (d : Draft) (count : CompileReport → CompileReport) (units : List MeshUnit) :
    Result Draft :=
  units.foldlM (fun d u => (d.graph.addUnit u).map fun added => ⟨added.2, count d.report⟩) d

/-- The units of one subgroup: Input and Threshold, the nodes of its tree, and a Weight unit
    for every subgroup that it may hear from. -/
def addSubgroup (p : Plan) (d : Draft) (sg : Subgroup) : Result Draft := do
  let ends ← d.graph.addUnits [.input sg, .threshold sg]
  let counted : Draft := ⟨ends, d.report.countEnds⟩
  let grown ← counted.addUnits CompileReport.countSum ((List.range p.tree.nodes).map (.sum sg))
  grown.addUnits CompileReport.countWeight (p.subgroups.map (.weight sg))

/-- All units of a plan, subgroup by subgroup. -/
def create (p : Plan) : Result Draft := do
  let created ← p.subgroups.foldlM (addSubgroup p) {}
  pure { created with report := { created.report with subgroups := p.subgroups.length } }

/-- Makes a connection. One that is there already is not counted again. -/
def connect (d : Draft) (w : Wire) : Result Draft :=
  (d.graph.connect w.source w.target w.category w.packets).map fun connected =>
    ⟨connected.2, if connected.1 then d.report.countEdge else d.report⟩

def connectAll (d : Draft) (wires : List Wire) : Result Draft := wires.foldlM connect d

end Draft

/-- Plans, creates, wires and audits. -/
def compile (t : Topology) (limits : Limits) : Result CompiledGraph := do
  let plan ← Plan.make t limits
  let created ← Draft.create plan
  let wired ← created.connectAll (plan.wires (created.graph.units.toList.map (·.id)))
  let report := { wired.report with stopChain := plan.stopChain.length }
  match plan.audit wired.graph with
  | [] => pure ⟨plan, wired.graph, report⟩
  | first :: rest => throw (.protocol (rest.length + 1) first)

end PerceptronMesh

import PerceptronMesh.Json.Value

/-!
Counts of one compilation.
-/

namespace PerceptronMesh

structure CompileReport where
  subgroups : Nat := 0
  weightUnits : Nat := 0
  /-- Nodes of all reduction trees. -/
  sumUnits : Nat := 0
  /-- Input and Threshold units. -/
  ioUnits : Nat := 0
  edges : Nat := 0
  stopChain : Nat := 0
deriving DecidableEq, Repr

namespace CompileReport

def totalUnits (r : CompileReport) : Nat := r.weightUnits + r.sumUnits + r.ioUnits

/-- One more Sum unit. -/
def countSum (r : CompileReport) : CompileReport := { r with sumUnits := r.sumUnits + 1 }

/-- One more Weight unit. -/
def countWeight (r : CompileReport) : CompileReport := { r with weightUnits := r.weightUnits + 1 }

/-- The Input and the Threshold unit of one more subgroup. -/
def countEnds (r : CompileReport) : CompileReport := { r with ioUnits := r.ioUnits + 2 }

/-- One more edge. -/
def countEdge (r : CompileReport) : CompileReport := { r with edges := r.edges + 1 }

def hasUnits (r : CompileReport) : Bool := 0 < r.totalUnits

def text (r : CompileReport) : String :=
  "CompileResult \x7b " ++ s!"{r.subgroups} subgroups, {r.weightUnits} weight + " ++
    s!"{r.sumUnits} sum + {r.ioUnits} i/o units, {r.edges} edges, stop chain {r.stopChain}" ++
    " \x7d"

def toJson (r : CompileReport) : Json := .object [
  ("subgroups", .nat r.subgroups), ("weight_units", .nat r.weightUnits),
  ("sum_units", .nat r.sumUnits), ("io_units", .nat r.ioUnits),
  ("edges_wired", .nat r.edges), ("stop_chain_len", .nat r.stopChain)]

end CompileReport

end PerceptronMesh

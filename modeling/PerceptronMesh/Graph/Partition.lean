import PerceptronMesh.Graph.Basic

/-!
Partitions of a graph's traffic, and counts over the graph.
-/

namespace PerceptronMesh

/-- The outgoing traffic of one unit in one category. -/
structure Partition where
  name : String
  source : UnitId
  category : Category
  fanOut : Nat
deriving DecidableEq, Repr

structure GraphStats where
  units : Nat
  /-- Counts of the roles that occur. -/
  unitsByRole : List (UnitRole × Nat)
  edges : Nat
  /-- Counts of the categories that occur. -/
  edgesByCategory : List (Category × Nat)
  partitions : Nat
  maxInDegree : Nat
deriving DecidableEq, Repr

namespace Graph

/-- The partition of a unit's outgoing edges in a category, if there are any. -/
def partition? (outgoing : List Edge) (id : UnitId) (c : Category) : Option Partition :=
  match outgoing.filter (·.category = c) with
  | [] => none
  | first :: rest => some ⟨first.partition, id, c, rest.length + 1⟩

/-- All partitions, by unit in order of creation and then by category. -/
def partitions (g : Graph) : List Partition :=
  g.units.toList.flatMap fun u =>
    let outgoing := g.edges.toList.filter (·.source = u.id)
    Category.all.filterMap (partition? outgoing u.id)

/-- How often each candidate occurs, without those that do not. -/
def tally {α : Type} [DecidableEq α] (candidates items : List α) : List (α × Nat) :=
  (candidates.map fun a => (a, items.count a)).filter fun (_, n) => n ≠ 0

def inDegree (g : Graph) (id : UnitId) : Nat := g.edges.toList.countP (·.target = id)

def stats (g : Graph) : GraphStats where
  units := g.units.size
  unitsByRole := tally UnitRole.all (g.units.toList.map (·.role))
  edges := g.edges.size
  edgesByCategory := tally Category.all (g.edges.toList.map (·.category))
  partitions := g.partitions.length
  maxInDegree := (g.units.toList.map fun u => g.inDegree u.id).foldl max 0

end Graph

/-- A count as an object member under a name. -/
def countMember {α : Type} (name : α → String) (entry : α × Nat) : String × Json :=
  (name entry.1, .nat entry.2)

def GraphStats.toJson (s : GraphStats) : Json := .object [
  ("units", .nat s.units),
  ("units_by_role", .object (s.unitsByRole.map (countMember UnitRole.name))),
  ("edges", .nat s.edges),
  ("edges_by_category", .object (s.edgesByCategory.map (countMember Category.name))),
  ("partitions", .nat s.partitions),
  ("max_in_degree", .nat s.maxInDegree)]

def Edge.toJson (e : Edge) : Json := .object [
  ("from", .string e.source.text), ("to", .string e.target.text),
  ("category", .string e.category.name), ("partition", .string e.partition),
  ("packets", .nat e.packets.toNat)]

def Graph.toJson (g : Graph) : Json := .object [
  ("units", .list MeshUnit.toJson g.units.toList), ("edges", .list Edge.toJson g.edges.toList)]

end PerceptronMesh

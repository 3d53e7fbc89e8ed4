import PerceptronMesh.Error
import PerceptronMesh.Graph.Unit

/-!
Graphs of units and categorised edges. No two units share an identifier and no
two edges share source, target and category.
-/

namespace PerceptronMesh

structure Edge where
  source : UnitId
  target : UnitId
  category : Category
  /-- The name under which the source sends this traffic. -/
  partition : String
  /-- Messages sent along the edge in one exchange. -/
  packets : UInt32
deriving DecidableEq, Repr

/-- Units and edges in the order they were added. -/
structure Graph where
  units : Array MeshUnit := #[]
  edges : Array Edge := #[]
deriving DecidableEq, Repr

namespace Graph

def empty : Graph := {}

def unit? (g : Graph) (id : UnitId) : Option MeshUnit := g.units.find? (·.id == id)

def contains (g : Graph) (id : UnitId) : Bool := (g.unit? id).isSome

/-- Position of a unit among the units. -/
def nodeIndex (g : Graph) (id : UnitId) : Result Nat :=
  match g.units.findIdx? (·.id == id) with
  | some index => .ok index
  | none => .error (.notFound (.unit id))

/-- Adds a unit with a new identifier and gives its position. -/
def addUnit (g : Graph) (u : MeshUnit) : Result (Nat × Graph) :=
  if g.contains u.id then .error (.graph (.unitExists u.id))
  else .ok (g.units.size, { g with units := g.units.push u })

/-- Adds units one after another. -/
def addUnits (g : Graph) (units : List MeshUnit) : Result Graph :=
  units.foldlM (fun g u => (g.addUnit u).map (·.2)) g

def hasEdge (g : Graph) (source target : UnitId) (c : Category) : Bool :=
  g.edges.any fun e => e.category = c && e.source = source && e.target = target

/-- Connects two units of the graph. An edge that is there already stays as it
    is, and the answer is `false`. -/
def connect (g : Graph) (source target : UnitId) (c : Category) (packets : UInt32) :
    Result (Bool × Graph) :=
  match g.unit? source with
  | none => .error (.notFound (.unit source))
  | some sender =>
    if !g.contains target then .error (.notFound (.unit target))
    else if g.hasEdge source target c then .ok (false, g)
    else
      let edge := ⟨source, target, c, sender.partitionName c, packets⟩
      .ok (true, { g with edges := g.edges.push edge })

/-- The same for a count of messages, which is cut to a word. -/
def addEdge (g : Graph) (source target : UnitId) (c : Category) (packets : Nat) :
    Result (Bool × Graph) :=
  g.connect source target c (.ofNat packets)

/-- Edges of one category that arrive at a unit, in the order they were added. -/
def inEdges (g : Graph) (id : UnitId) (c : Category) : List Edge :=
  g.edges.toList.filter fun e => e.target = id && e.category = c

/-- Edges of one category that leave a unit. -/
def outEdges (g : Graph) (id : UnitId) (c : Category) : List Edge :=
  g.edges.toList.filter fun e => e.source = id && e.category = c

def unitsWithRole (g : Graph) (role : UnitRole) : List MeshUnit :=
  g.units.toList.filter (·.role == role)

/-- The partition of a unit's traffic in a category, if it sends any. -/
def outgoingPartition (g : Graph) (id : UnitId) (c : Category) : Option String :=
  (g.edges.find? fun e => e.source = id && e.category = c).map (·.partition)

end Graph

end PerceptronMesh

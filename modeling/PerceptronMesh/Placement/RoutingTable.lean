import PerceptronMesh.Graph.Basic
import PerceptronMesh.Payload.Record

/-!
The routing keys of partitions.
-/

namespace PerceptronMesh

/-- Keys by partition name, sorted by name and without repeats. -/
structure RoutingTable where
  entries : List (String × UInt32) := []
deriving DecidableEq, Repr

namespace RoutingTable

def empty : RoutingTable := {}

def insertEntry (name : String) (key : UInt32) : List (String × UInt32) → List (String × UInt32)
  | [] => [(name, key)]
  | (other, old) :: rest =>
    if name = other then (name, key) :: rest
    else if name < other then (name, key) :: (other, old) :: rest
    else (other, old) :: insertEntry name key rest

/-- The table with a key for a partition in place of any it had. -/
def insert (t : RoutingTable) (name : String) (key : UInt32) : RoutingTable :=
  ⟨insertEntry name key t.entries⟩

/-- A table of the given keys; of two for one partition the later counts. -/
def ofList (entries : List (String × UInt32)) : RoutingTable :=
  entries.foldl (fun t (name, key) => t.insert name key) empty

def key? (t : RoutingTable) (name : String) : Option UInt32 := t.entries.lookup name

def size (t : RoutingTable) : Nat := t.entries.length

/-- Enters a unit's key of one category, if the unit sends in it. -/
def addKey (t : RoutingTable) (g : Graph) (unit : UnitId) (keys : RoutingKeys) (c : Category) :
    Result RoutingKeys :=
  match g.outgoingPartition unit c with
  | none => .ok keys
  | some name =>
    match t.key? name with
    | some key => .ok (keys.set c key)
    | none => .error (.placement (.noRoutingKey name))

/-- The keys of a unit, 0 in categories that it does not send in. -/
def keysFor (t : RoutingTable) (g : Graph) (unit : UnitId) : Result RoutingKeys :=
  Category.routingOrder.foldlM (t.addKey g unit) {}

end RoutingTable

end PerceptronMesh

import PerceptronMesh.Graph.Category
import PerceptronMesh.Topology.Function
import PerceptronMesh.Wire.Field

/-!
The Network and Routing regions.
-/

namespace PerceptronMesh

/-- What all units know about their network. -/
structure NetworkRecord where
  kind : NetworkKind
  ticksPerInterval : UInt32
  globalMaxTicks : UInt32
  outputGroups : UInt32
deriving DecidableEq, Repr

namespace NetworkRecord

def size : Nat := 16

def fields (r : NetworkRecord) : List Wire.Field :=
  [.u8 r.kind.code, .pad 3, .u32 r.ticksPerInterval, .u32 r.globalMaxTicks, .u32 r.outputGroups]

def bytes (r : NetworkRecord) : List UInt8 := Wire.encode r.fields

@[simp] theorem length_bytes (r : NetworkRecord) : r.bytes.length = size := rfl

end NetworkRecord

/-- A word for every category of traffic. -/
abbrev CategoryWords := Category → UInt32

/-- A unit's routing key in each category, 0 where it sends nothing. -/
structure RoutingKeys where
  key : CategoryWords := fun _ => 0

namespace RoutingKeys

def size : Nat := 20

def get (k : RoutingKeys) (c : Category) : UInt32 := k.key c

def set (k : RoutingKeys) (c : Category) (key : UInt32) : RoutingKeys :=
  ⟨fun other => if other = c then key else k.key other⟩

@[simp] theorem get_set (k : RoutingKeys) (c other : Category) (key : UInt32) :
    (k.set c key).get other = if other = c then key else k.get other := rfl

/-- The keys in the order of a Routing region. -/
def inOrder (k : RoutingKeys) : List UInt32 := Category.routingOrder.map k.key

def fields (k : RoutingKeys) : List Wire.Field := k.inOrder.map .u32

def bytes (k : RoutingKeys) : List UInt8 := Wire.encode k.fields

@[simp] theorem length_bytes (k : RoutingKeys) : k.bytes.length = size := rfl

end RoutingKeys

end PerceptronMesh

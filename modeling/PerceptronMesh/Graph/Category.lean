/-!
The five kinds of traffic between units.
-/

namespace PerceptronMesh

inductive Category where
  /-- Activations. -/
  | forward
  /-- Error derivatives. -/
  | backprop
  /-- Partial sums of weight changes up the trees, the scale back down. -/
  | linkDeltaSum
  /-- Pulses that keep Sum and Weight units in step. -/
  | syncGen
  /-- Convergence decisions and the stop broadcast. -/
  | stop
deriving DecidableEq, Repr

namespace Category

/-- All categories in their own order. -/
def all : List Category := [.forward, .backprop, .linkDeltaSum, .syncGen, .stop]

/-- The order of routing keys in a unit's Routing region. -/
def routingOrder : List Category := [.forward, .backprop, .syncGen, .stop, .linkDeltaSum]

/-- Position in `all`. -/
def rank : Category → Nat
  | .forward => 0
  | .backprop => 1
  | .linkDeltaSum => 2
  | .syncGen => 3
  | .stop => 4

/-- Position in `routingOrder`. -/
def routingSlot : Category → Nat
  | .forward => 0
  | .backprop => 1
  | .syncGen => 2
  | .stop => 3
  | .linkDeltaSum => 4

def name : Category → String
  | .forward => "forward"
  | .backprop => "backprop"
  | .linkDeltaSum => "link_delta_sum"
  | .syncGen => "sync_gen"
  | .stop => "stop"

def shortName : Category → String
  | .forward => "fwd"
  | .backprop => "bkp"
  | .linkDeltaSum => "lds"
  | .syncGen => "fsg"
  | .stop => "stp"

def ofName? (name : String) : Option Category := all.find? (·.name == name)

theorem mem_all (c : Category) : c ∈ all := by cases c <;> decide

theorem routingOrder_getElem? (c : Category) : routingOrder[c.routingSlot]? = some c := by
  cases c <;> rfl

end Category

end PerceptronMesh

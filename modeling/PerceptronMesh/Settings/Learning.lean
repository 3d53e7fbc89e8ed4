import PerceptronMesh.Numeric.Binary64
import PerceptronMesh.Topology.Function

/-!
Learning parameters of a network, and the overrides a group may set.
-/

namespace PerceptronMesh

open Numeric

/-- A group's own parameters; an absent one is taken from the network. -/
structure GroupParams where
  learningRate : Option Binary64 := none
  weightDecay : Option Binary64 := none
  momentum : Option Binary64 := none
  trainCriterion : Option Binary64 := none
  testCriterion : Option Binary64 := none
deriving DecidableEq, Repr, Inhabited

/-- Whether all parameters are equal as numbers. A NaN makes this false even of
    a value and itself. -/
def GroupParams.eq (a b : GroupParams) : Bool :=
  Binary64.eqOption a.learningRate b.learningRate &&
    Binary64.eqOption a.weightDecay b.weightDecay &&
    Binary64.eqOption a.momentum b.momentum &&
    Binary64.eqOption a.trainCriterion b.trainCriterion &&
    Binary64.eqOption a.testCriterion b.testCriterion

/-- Changes to a network's settings; absent ones keep the current value. -/
structure NetworkParams where
  updates : Option UInt32 := none
  trainCriterion : Option Binary64 := none
  testCriterion : Option Binary64 := none
  learningRate : Option Binary64 := none
  weightDecay : Option Binary64 := none
  momentum : Option Binary64 := none
deriving DecidableEq, Repr, Inhabited

/-- Network-wide parameters of execution and learning. -/
structure Settings where
  kind : NetworkKind := .feedForward
  ticksPerInterval : Nat := 1
  intervals : Nat := 1
  learningRate : Binary64 := .ofRatio false 1 10
  weightDecay : Binary64 := .zero false
  momentum : Binary64 := .ofRatio false 9 10
  updateFunction : UpdateFunction := .dougsMomentum
  updates : UInt32 := 1
  trainCriterion : Option Binary64 := none
  testCriterion : Option Binary64 := none
deriving DecidableEq, Repr

namespace Settings

/-- Ticks of the longest example that the units run, counted in a word, which wraps; arithmetic
    that is checked for overflow stops there instead. -/
def globalMaxTicks (s : Settings) : UInt32 := .ofNat s.intervals * .ofNat s.ticksPerInterval + 1

theorem toNat_globalMaxTicks (s : Settings) :
    s.globalMaxTicks.toNat = (s.intervals * s.ticksPerInterval + 1) % Nat.pow 2 32 := by
  rw [globalMaxTicks, ← UInt32.ofNat_mul, ← UInt32.ofNat_one, ← UInt32.ofNat_add, UInt32.toNat_ofNat']

/-- Whether a value differs, as a number, that units hold in their Core regions. -/
def unitParamsDiffer (a b : Settings) : Bool :=
  !(a.learningRate.eq b.learningRate && a.weightDecay.eq b.weightDecay &&
    a.momentum.eq b.momentum && Binary64.eqOption a.trainCriterion b.trainCriterion &&
    Binary64.eqOption a.testCriterion b.testCriterion)

/-- The settings with every parameter that `params` gives. -/
def apply (s : Settings) (params : NetworkParams) : Settings :=
  { s with
    updates := params.updates.getD s.updates
    trainCriterion := params.trainCriterion.or s.trainCriterion
    testCriterion := params.testCriterion.or s.testCriterion
    learningRate := params.learningRate.getD s.learningRate
    weightDecay := params.weightDecay.getD s.weightDecay
    momentum := params.momentum.getD s.momentum }

/-- Length of a tick as a share of its interval. -/
def tickShare (s : Settings) : Binary64 := .ofRatio false 1 (max s.ticksPerInterval 1)

end Settings

end PerceptronMesh

import PerceptronMesh.Graph.Unit

/-!
What each unit waits for, computed from the plan without looking at any edge. Nobody waits for
more senders than there are units. Packets are counted in 32-bit words, which wrap; arithmetic
that is checked for overflow stops there instead.
-/

namespace PerceptronMesh

/-- Counts in the Core region of a Sum unit. -/
structure SumExpectations where
  forward : Nat
  backprop : Nat
  /-- Packets, of which a leaf sends one a unit. -/
  linkDeltas : UInt32
  syncs : Nat
  siblings : Nat
deriving DecidableEq, Repr

namespace Plan

def subgroupOf (p : Plan) (u : MeshUnit) : Option Subgroup := p.subgroup? u.group u.subgroup

/-- Senders of the stop broadcast: one if there is an output group. -/
def stopSenders (p : Plan) : Nat := if p.lastOutput.isSome then 1 else 0

/-- Decisions that a Threshold unit waits for from its chain predecessor. -/
def expectedDecisions (p : Plan) (u : MeshUnit) : Nat :=
  if u.role ≠ .threshold then 0
  else if ((p.subgroupOf u).bind p.chainPredecessor).isSome then 1 else 0

/-- Roots of other trees that report to a Sum unit. -/
def expectedSiblings (p : Plan) (u : MeshUnit) : Nat :=
  if u.role ≠ .sum ∨ u.treeNode ≠ some 0 then 0
  else ((p.subgroupOf u).map p.siblingCount).getD 0

/-- Inputs of a Sum unit within its own tree. -/
def treeInputs (p : Plan) (u : MeshUnit) : Nat := p.tree.inDegree (u.treeNode.getD 0)

/-- Stop senders of a Threshold unit: its chain predecessor, and the last output
    unless it is that one itself. -/
def expectedStops (p : Plan) (u : MeshUnit) : Nat :=
  match p.subgroupOf u with
  | none => 0
  | some sg =>
    p.expectedDecisions u + (if p.lastOutput.isSome && !p.isLastOutput sg then 1 else 0)

/-- Distinct senders that a unit hears from in a category. -/
def expectedSenders (p : Plan) (u : MeshUnit) (c : Category) : Nat :=
  match u.role, c with
  | .weight, .forward | .weight, .backprop | .weight, .linkDeltaSum => 1
  | .weight, .syncGen => if u.isSelfPair then 1 else 2
  | .sum, .forward | .sum, .backprop => p.treeInputs u
  | .sum, .linkDeltaSum | .sum, .syncGen => p.treeInputs u + p.expectedSiblings u
  | .input, .forward | .input, .backprop => 1
  | .input, .linkDeltaSum | .input, .syncGen => 0
  | .threshold, .forward | .threshold, .backprop => 1
  | .threshold, .linkDeltaSum | .threshold, .syncGen => 0
  | .threshold, .stop => p.expectedStops u
  | _, .stop => p.stopSenders

def sumExpectations (p : Plan) (u : MeshUnit) : SumExpectations :=
  let node := u.treeNode.getD 0
  let siblings := p.expectedSiblings u
  let forward := p.expectedSenders u .forward
  { forward
    backprop := p.expectedSenders u .backprop
    linkDeltas := .ofNat (p.tree.leafCount node) * .ofNat u.units + .ofNat (p.tree.childCount node) +
      .ofNat siblings
    syncs := forward + siblings
    siblings }

/-- Packets that a unit receives in a category. They are as many as its senders
    but for link deltas into a Sum unit, where a leaf sends one a unit. -/
def expectedPackets (p : Plan) (u : MeshUnit) (c : Category) : UInt32 :=
  if u.role = .sum ∧ c = .linkDeltaSum then (p.sumExpectations u).linkDeltas
  else .ofNat (p.expectedSenders u c)

/-- Counts in the Core region of a Weight unit. -/
def weightExpectations (p : Plan) (u : MeshUnit) : List Nat :=
  Category.all.map (p.expectedSenders u)

end Plan

end PerceptronMesh

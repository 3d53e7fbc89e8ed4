import PerceptronMesh.Graph.Basic

/-!
The connections that a plan asks for, in the order in which they are made.
-/

namespace PerceptronMesh

/-- A connection to be made. -/
structure Wire where
  source : UnitId
  target : UnitId
  category : Category
  packets : UInt32 := 1
deriving DecidableEq, Repr

namespace Plan

/-- Root of a subgroup's reduction tree. -/
def rootOf (sg : Subgroup) : UnitId := .sum sg.group sg.subgroup 0

def inputOf (sg : Subgroup) : UnitId := .input sg.group sg.subgroup

def thresholdOf (sg : Subgroup) : UnitId := .threshold sg.group sg.subgroup

def weightOf (target source : Subgroup) : UnitId :=
  .weight target.group target.subgroup source.group source.subgroup

/-- The node of `tree`'s reduction tree that takes in the leaf of `leaf`. -/
def leafOf (p : Plan) (tree leaf : Subgroup) : UnitId :=
  .sum tree.group tree.subgroup (p.tree.leafNode leaf.index)

/-- Root of the first subgroup of all, where every reduction ends. -/
def globalRoot (p : Plan) : Option UnitId := (p.subgroup? p.firstGroup 0).map rootOf

/-- Connections of the Weight unit from `source` to `target`. -/
def pairWires (p : Plan) (target source : Subgroup) : List Wire :=
  let w := weightOf target source
  let ownLeaf := p.leafOf target source
  let scale := p.globalRoot.toList.map fun root => ⟨root, w, .linkDeltaSum, 1⟩
  [⟨thresholdOf source, w, .forward, 1⟩, ⟨w, ownLeaf, .forward, 1⟩,
    ⟨inputOf target, w, .backprop, 1⟩, ⟨w, p.leafOf source target, .backprop, 1⟩,
    ⟨w, ownLeaf, .linkDeltaSum, .ofNat target.units⟩] ++ scale ++
  [⟨w, ownLeaf, .syncGen, 1⟩, ⟨rootOf target, w, .syncGen, 1⟩, ⟨rootOf source, w, .syncGen, 1⟩]

def weightWires (p : Plan) : List Wire :=
  p.weightPairs.flatMap fun (target, source) => p.pairWires target source

/-- Sum to Input to Threshold forward, and back to Input; the root also feeds
    the Threshold unit backward. -/
def subgroupWires (p : Plan) : List Wire :=
  p.subgroups.flatMap fun sg =>
    [⟨rootOf sg, inputOf sg, .forward, 1⟩, ⟨inputOf sg, thresholdOf sg, .forward, 1⟩,
      ⟨thresholdOf sg, inputOf sg, .backprop, 1⟩, ⟨rootOf sg, thresholdOf sg, .backprop, 1⟩]

/-- The categories that reduction trees sum. -/
def summed : List Category := [.forward, .backprop, .linkDeltaSum, .syncGen]

/-- Nodes below the root report to their parents. -/
def treeWires (p : Plan) : List Wire :=
  p.subgroups.flatMap fun sg =>
    (List.range p.tree.nodes).flatMap fun node =>
      match p.tree.parent node with
      | none => []
      | some above =>
        summed.map fun c =>
          ⟨.sum sg.group sg.subgroup node, .sum sg.group sg.subgroup above, c, 1⟩

/-- The root that a subgroup's root reports to: that of the first subgroup of
    its group, or the global root. -/
def reportsTo (p : Plan) (root : UnitId) (sg : Subgroup) : Option UnitId :=
  if sg.subgroup ≠ 0 then some (.sum sg.group 0 0)
  else if sg.group ≠ p.firstGroup then some root
  else none

def siblingWires (p : Plan) : List Wire :=
  match p.globalRoot with
  | none => []
  | some root =>
    p.subgroups.flatMap fun sg =>
      match p.reportsTo root sg with
      | none => []
      | some target => [⟨rootOf sg, target, .linkDeltaSum, 1⟩, ⟨rootOf sg, target, .syncGen, 1⟩]

/-- Each member of a chain tells the next. -/
def chainWires : List Subgroup → List Wire
  | first :: second :: rest =>
    ⟨thresholdOf first, thresholdOf second, .stop, 1⟩ :: chainWires (second :: rest)
  | _ => []

/-- The last output tells every other unit to stop. -/
def broadcastWires (p : Plan) (units : List UnitId) : List Wire :=
  match p.lastOutput with
  | none => []
  | some last =>
    (units.filter (· ≠ thresholdOf last)).map fun target => ⟨thresholdOf last, target, .stop, 1⟩

/-- All connections of a graph with the given units. -/
def wires (p : Plan) (units : List UnitId) : List Wire :=
  p.weightWires ++ p.subgroupWires ++ p.treeWires ++ p.siblingWires ++
    chainWires p.stopChain ++ p.broadcastWires units

end Plan

end PerceptronMesh

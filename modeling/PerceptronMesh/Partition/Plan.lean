import PerceptronMesh.Partition.Tree
import PerceptronMesh.Settings.Limits
import PerceptronMesh.Topology.Basic

/-!
The subgroups of a topology in one numbering, and what wiring and scoreboards
derive from it.
-/

namespace PerceptronMesh

/-- One part of a group. The index is its position among all subgroups, and its
    leaf in every reduction tree. -/
structure Subgroup where
  group : GroupId
  subgroup : Nat
  units : Nat
  index : Nat
deriving DecidableEq, Repr

structure Plan where
  subgroups : List Subgroup
  /-- Number of subgroups of each group. -/
  counts : List Nat
  outputChain : List GroupId
  tree : TreeLayout
deriving DecidableEq, Repr

/-- The subgroups of one group, numbered from `start` on. -/
def subgroupsFrom (group : GroupId) (subunits : List Nat) (start : Nat) : List Subgroup :=
  subunits.mapIdx fun s units => ⟨group, s, units, start + s⟩

/-- The subgroups of a list of groups, numbered from `start` on. -/
def enumerateSubgroups : List Group → (start : Nat) → List Subgroup
  | [], _ => []
  | g :: rest, start =>
    subgroupsFrom g.id g.subunits start ++ enumerateSubgroups rest (start + g.subgroups)

namespace Plan

/-- Plans a topology whose groups are all within the limits. -/
def make (t : Topology) (limits : Limits) : Result Plan := do
  limits.validate
  match t.oversizedGroups limits.maxGroupUnits with
  | g :: _ => throw (.configuration (.oversizedGroup g.label g.units limits.maxGroupUnits))
  | [] =>
    let subgroups := enumerateSubgroups t.groups 0
    pure {
      subgroups
      counts := t.groups.map Group.subgroups
      outputChain := t.outputChain
      tree := .make subgroups.length limits.maxSumLinks }

def total (p : Plan) : Nat := p.subgroups.length

def groupCount (p : Plan) : Nat := p.counts.length

/-- Number of subgroups of a group, 0 for one that does not exist. -/
def subgroupCount (p : Plan) (group : GroupId) : Nat := p.counts.getD group 0

/-- Index of a group's first subgroup. -/
def groupStart (p : Plan) (group : GroupId) : Nat := Numeric.total (p.counts.take group)

def subgroup? (p : Plan) (group : GroupId) (subgroup : Nat) : Option Subgroup :=
  if p.subgroupCount group ≤ subgroup then none
  else p.subgroups[p.groupStart group + subgroup]?

def subgroupsOf (p : Plan) (group : GroupId) : List Subgroup :=
  (p.subgroups.drop (p.groupStart group)).take (p.subgroupCount group)

/-- The group that holds the root of all reductions. -/
def firstGroup (_ : Plan) : GroupId := Topology.bias

/-- Every pair of a destination and a source subgroup, by destination first. -/
def weightPairs (p : Plan) : List (Subgroup × Subgroup) :=
  p.subgroups.flatMap fun target => p.subgroups.map fun source => (target, source)

/-- All subgroups of output groups, in the order of the output chain. -/
def stopChain (p : Plan) : List Subgroup := p.outputChain.flatMap p.subgroupsOf

/-- The subgroup that broadcasts the stop decision. -/
def lastOutput (p : Plan) : Option Subgroup := do
  let group ← p.outputChain.getLast?
  (p.subgroupsOf group).getLast?

def isLastOutput (p : Plan) (sg : Subgroup) : Bool := p.lastOutput = some sg

/-- The member of the stop chain in front of a subgroup. -/
def chainPredecessor (p : Plan) (sg : Subgroup) : Option Subgroup := do
  let position ← p.stopChain.idxOf? sg
  if position = 0 then none else p.stopChain[position - 1]?

def chainSuccessor (p : Plan) (sg : Subgroup) : Option Subgroup := do
  let position ← p.stopChain.idxOf? sg
  p.stopChain[position + 1]?

/-- How many other tree roots report to the root of a subgroup's tree: the rest
    of its group for the first subgroup of a group, and the other groups as well
    for the first of all. -/
def siblingCount (p : Plan) (sg : Subgroup) : Nat :=
  if sg.subgroup ≠ 0 then 0
  else
    let own := p.subgroupCount sg.group - 1
    if sg.group = p.firstGroup then own + (p.groupCount - 1) else own

end Plan

end PerceptronMesh

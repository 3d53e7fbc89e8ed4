/-!
Reduction trees of bounded fan-in. Nodes and leaves share one numbering of
slots: the nodes below the root come first, then the leaves, and every node owns
the next `maxLinks` slots.
-/

namespace PerceptronMesh

structure TreeLayout where
  maxLinks : Nat
  leaves : Nat
  nodes : Nat
deriving DecidableEq, Repr

namespace TreeLayout

/-- The layout for a number of leaves. A fan-in below 2 counts as 2. -/
def make (leaves maxLinks : Nat) : TreeLayout :=
  let maxLinks := max maxLinks 2
  { maxLinks, leaves
    nodes := if leaves ≤ 1 then 1 else (leaves - 2) / (maxLinks - 1) + 1 }

def slotOwner (t : TreeLayout) (slot : Nat) : Nat := slot / t.maxLinks

/-- The parent of a node; the root and numbers that are no node have none. -/
def parent (t : TreeLayout) (node : Nat) : Option Nat :=
  if node = 0 ∨ t.nodes ≤ node then none else some (t.slotOwner (node - 1))

/-- The node that takes in a leaf. -/
def leafNode (t : TreeLayout) (leaf : Nat) : Nat := t.slotOwner (t.nodes - 1 + leaf)

def children (t : TreeLayout) (node : Nat) : List Nat :=
  (List.range t.nodes).filter fun n => t.parent n == some node

def leavesOf (t : TreeLayout) (node : Nat) : List Nat :=
  (List.range t.leaves).filter fun l => t.leafNode l == node

def childCount (t : TreeLayout) (node : Nat) : Nat := (t.children node).length

def leafCount (t : TreeLayout) (node : Nat) : Nat := (t.leavesOf node).length

/-- Children and leaves of a node. -/
def inDegree (t : TreeLayout) (node : Nat) : Nat := t.childCount node + t.leafCount node

theorem lt_of_parent {t : TreeLayout} {node above : Nat} (h : t.parent node = some above) :
    above < node := by
  unfold parent at h
  split at h
  · cases h
  · rename_i hnode
    have habove : (node - 1) / t.maxLinks = above := Option.some.inj h
    have hle : (node - 1) / t.maxLinks ≤ node - 1 := Nat.div_le_self _ _
    omega

/-- Steps from a node up to the root. -/
def depth (t : TreeLayout) (node : Nat) : Nat :=
  match h : t.parent node with
  | none => 0
  | some above => t.depth above + 1
termination_by node
decreasing_by exact lt_of_parent h

end TreeLayout

end PerceptronMesh

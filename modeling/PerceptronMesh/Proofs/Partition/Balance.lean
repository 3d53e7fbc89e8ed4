import Mathlib.Algebra.Order.BigOperators.Group.Finset
import Mathlib.Algebra.Order.Floor.Div
import Mathlib.Logic.Relation
import Mathlib.Order.Bounds.Basic
import PerceptronMesh.Proofs.Partition.Tree

/-!
The shape of reduction trees. Nodes and leaves fill the slots of one node after another, so that
every node but the last is full. For that no tree of fewer nodes has room for the leaves, and the
nodes that take in leaves stand at two neighbouring depths.
-/

namespace PerceptronMesh

/-- A tree of nodes that take in leaves: every node but the root hangs below another one, all lead
to the root, and none takes in more nodes and leaves than the fan-in. -/
structure ReductionTree (leaves fanIn nodes : Nat) where
  root : Nat
  parent : Nat → Option Nat
  receiver : Nat → Nat
  root_lt : root < nodes
  receiver_lt : ∀ {leaf : Nat}, leaf < leaves → receiver leaf < nodes
  parent_lt : ∀ {node above : Nat}, node < nodes → parent node = some above → above < nodes
  parent_eq_none_iff : ∀ {node : Nat}, node < nodes → (parent node = none ↔ node = root)
  leads_to_root : ∀ {node : Nat}, node < nodes →
    Relation.ReflTransGen (fun below above => parent below = some above) node root
  inputs_le : ∀ {node : Nat}, node < nodes →
    ((Finset.range nodes).filter fun below => parent below = some node).card +
      ((Finset.range leaves).filter fun leaf => receiver leaf = node).card ≤ fanIn

/-- Every leaf and every node but the root takes one of the slots that the nodes have together. -/
theorem ReductionTree.slots_le {leaves fanIn nodes : Nat} (tree : ReductionTree leaves fanIn nodes) :
    nodes - 1 + leaves ≤ nodes * fanIn := by
  have hnodes : nodes - 1 ≤ ∑ node ∈ Finset.range nodes,
      ((Finset.range nodes).filter fun below => tree.parent below = some node).card := by
    have hbelow : ((Finset.range nodes).erase tree.root).card = nodes - 1 := by
      rw [Finset.card_erase_of_mem (Finset.mem_range.2 tree.root_lt), Finset.card_range]
    have hparent : ∀ below ∈ (Finset.range nodes).erase tree.root,
        tree.parent below = some ((tree.parent below).getD 0) := by
      intro below hmem
      obtain ⟨hne, hlt⟩ := Finset.mem_erase.1 hmem
      cases h : tree.parent below with
      | none => exact absurd ((tree.parent_eq_none_iff (Finset.mem_range.1 hlt)).1 h) hne
      | some above => rfl
    have hinto : Set.MapsTo (fun below => (tree.parent below).getD 0)
        ((Finset.range nodes).erase tree.root) (Finset.range nodes) := by
      intro below hmem
      have hlt := Finset.mem_range.1 (Finset.mem_of_mem_erase hmem)
      exact Finset.mem_range.2 (tree.parent_lt hlt (hparent below hmem))
    rw [← hbelow, Finset.card_eq_sum_card_fiberwise hinto]
    refine Finset.sum_le_sum fun node _ => Finset.card_le_card fun below hmem => ?_
    obtain ⟨hbelow, rfl⟩ := Finset.mem_filter.1 hmem
    exact Finset.mem_filter.2 ⟨Finset.mem_of_mem_erase hbelow, hparent below hbelow⟩
  have hleaves : leaves = ∑ node ∈ Finset.range nodes,
      ((Finset.range leaves).filter fun leaf => tree.receiver leaf = node).card := by
    have hinto : Set.MapsTo tree.receiver (Finset.range leaves) (Finset.range nodes) :=
      fun leaf hmem => Finset.mem_range.2 (tree.receiver_lt (Finset.mem_range.1 hmem))
    rw [← Finset.card_eq_sum_card_fiberwise hinto, Finset.card_range]
  calc nodes - 1 + leaves
      ≤ ∑ node ∈ Finset.range nodes,
          (((Finset.range nodes).filter fun below => tree.parent below = some node).card +
            ((Finset.range leaves).filter fun leaf => tree.receiver leaf = node).card) := by
        rw [Finset.sum_add_distrib, ← hleaves]
        exact Nat.add_le_add_right hnodes leaves
    _ ≤ ∑ _node ∈ Finset.range nodes, fanIn :=
        Finset.sum_le_sum fun node hmem => tree.inputs_le (Finset.mem_range.1 hmem)
    _ = nodes * fanIn := by rw [Finset.sum_const, Finset.card_range, smul_eq_mul]

namespace TreeLayout

section Depth

variable {t : TreeLayout} {node above : Nat}

theorem parent_eq_some_iff :
    t.parent node = some above ↔ (node ≠ 0 ∧ node < t.nodes) ∧ t.slotOwner (node - 1) = above := by
  unfold parent
  split
  · simp only [reduceCtorEq, false_iff]
    omega
  · simp only [Option.some.injEq, iff_and_self]
    omega

theorem parent_eq_none_iff (h : node < t.nodes) : t.parent node = none ↔ node = 0 := by
  simp only [parent, ite_eq_left_iff, reduceCtorEq, imp_false]
  omega

theorem slotOwner_mono {slot other : Nat} (h : slot ≤ other) : t.slotOwner slot ≤ t.slotOwner other :=
  Nat.div_le_div_right h

@[simp] theorem depth_zero : t.depth 0 = 0 := by
  rw [depth]
  split
  · rfl
  · rename_i h
    simp at h

theorem depth_of_parent (h : t.parent node = some above) : t.depth node = t.depth above + 1 := by
  rw [depth]
  split
  · rename_i hnone
    cases hnone.symm.trans h
  · rename_i other hother
    cases hother.symm.trans h
    rfl

/-- As many parents as its depth lead from a node to the root. -/
theorem iterate_parent (h : node < t.nodes) : (·.bind t.parent)^[t.depth node] (some node) = some 0 := by
  induction node using Nat.strong_induction_on with
  | _ node ih =>
    by_cases hroot : node = 0
    · rw [hroot, depth_zero]
      rfl
    · obtain ⟨above, habove⟩ := exists_parent hroot h
      rw [depth_of_parent habove, Function.iterate_succ_apply, Option.bind_some, habove]
      exact ih above (lt_of_parent habove) (above_lt_nodes_of_parent habove)

theorem parents_lead_to_root (h : node < t.nodes) :
    Relation.ReflTransGen (fun below above => t.parent below = some above) node 0 := by
  induction node using Nat.strong_induction_on with
  | _ node ih =>
    by_cases hroot : node = 0
    · rw [hroot]
    · obtain ⟨above, habove⟩ := exists_parent hroot h
      exact .head habove (ih above (lt_of_parent habove) (above_lt_nodes_of_parent habove))

/-- Later nodes are no nearer to the root. -/
theorem depth_mono {other : Nat} (h : node ≤ other) (hother : other < t.nodes) :
    t.depth node ≤ t.depth other := by
  induction other using Nat.strong_induction_on generalizing node with
  | _ other ih =>
    by_cases hroot : node = 0
    · rw [hroot, depth_zero]
      exact Nat.zero_le _
    · obtain ⟨above, habove⟩ := exists_parent hroot (Nat.lt_of_le_of_lt h hother)
      obtain ⟨beyond, hbeyond⟩ := exists_parent (show other ≠ 0 by omega) hother
      have hle : above ≤ beyond := by
        rw [← (parent_eq_some_iff.1 habove).2, ← (parent_eq_some_iff.1 hbeyond).2]
        exact slotOwner_mono (by omega)
      rw [depth_of_parent habove, depth_of_parent hbeyond]
      exact Nat.succ_le_succ (ih beyond (lt_of_parent hbeyond) hle (above_lt_nodes_of_parent hbeyond))

/-- The parent of a node stands no later than any node that takes in a leaf. -/
theorem depth_le_depth_leafNode {leaf : Nat} (h : node < t.nodes) (hleaf : t.leafNode leaf < t.nodes) :
    t.depth node ≤ t.depth (t.leafNode leaf) + 1 := by
  by_cases hroot : node = 0
  · rw [hroot, depth_zero]
    exact Nat.zero_le _
  · obtain ⟨above, habove⟩ := exists_parent hroot h
    have hle : above ≤ t.leafNode leaf := by
      rw [← (parent_eq_some_iff.1 habove).2]
      exact slotOwner_mono (by omega)
    rw [depth_of_parent habove]
    exact Nat.succ_le_succ (depth_mono hle hleaf)

end Depth

section Slots

variable {t : TreeLayout} {node : Nat}

/-- Slots that a node owns among the first `count`. -/
def slotsOf (t : TreeLayout) (count node : Nat) : Nat :=
  ((List.range count).filter fun slot => t.slotOwner slot == node).length

/-- A node owns the slots between its own multiple of the fan-in and the next one. -/
theorem slotsOf_eq (hlinks : 0 < t.maxLinks) (count node : Nat) :
    t.slotsOf count node = min count ((node + 1) * t.maxLinks) - min count (node * t.maxLinks) := by
  have hwidth : (node + 1) * t.maxLinks = node * t.maxLinks + t.maxLinks := Nat.succ_mul _ _
  induction count with
  | zero => simp [slotsOf]
  | succ count ih =>
    have howner : t.slotOwner count = node ↔
        node * t.maxLinks ≤ count ∧ count ≤ node * t.maxLinks + t.maxLinks - 1 := Nat.div_eq_iff hlinks
    have hlast : t.slotsOf (count + 1) node =
        t.slotsOf count node + if t.slotOwner count = node then 1 else 0 := by
      rw [slotsOf, List.range_succ, List.filter_append, List.length_append, ← slotsOf]
      by_cases hown : t.slotOwner count = node <;> simp [hown]
    rw [hlast, ih]
    split <;> omega

/-- Nodes below the root take the first slots and leaves the next. -/
theorem inDegree_eq_slotsOf (hpos : 0 < t.nodes) : t.inDegree node = t.slotsOf (t.nodes - 1 + t.leaves) node := by
  have hchildren : t.childCount node = t.slotsOf (t.nodes - 1) node := by
    have hnodes : List.range t.nodes = 0 :: (List.range (t.nodes - 1)).map (· + 1) := by
      rw [← List.range_succ_eq_map, Nat.sub_add_cancel hpos]
    have hbelow : ∀ slot ∈ List.range (t.nodes - 1),
        (t.parent (slot + 1) == some node) = (t.slotOwner slot == node) := by
      intro slot hslot
      have hlt := List.mem_range.1 hslot
      rw [Bool.eq_iff_iff, beq_iff_eq, beq_iff_eq, parent_eq_some_iff, Nat.add_sub_cancel]
      exact and_iff_right ⟨Nat.succ_ne_zero _, by omega⟩
    rw [childCount, children, hnodes, List.filter_cons_of_neg (by simp), List.filter_map, List.length_map, slotsOf]
    exact congrArg List.length (List.filter_congr hbelow)
  rw [inDegree, hchildren, leafCount, leavesOf, slotsOf, slotsOf, List.range_add, List.filter_append,
    List.length_append, List.filter_map, List.length_map]
  rfl

end Slots

section Make

variable (leaves maxLinks : Nat)

@[simp] theorem maxLinks_make : (make leaves maxLinks).maxLinks = max maxLinks 2 := rfl

/-- A node takes in one input and at least one more. -/
theorem exists_further_links : ∃ k, 0 < k ∧ max maxLinks 2 = k + 1 :=
  ⟨max maxLinks 2 - 1, by omega, by omega⟩

/-- Of the inputs of all nodes the last node is left two at least. -/
theorem le_slots_make (h : 2 ≤ leaves) :
    ((make leaves maxLinks).nodes - 1) * max maxLinks 2 + 2 ≤ (make leaves maxLinks).nodes - 1 + leaves := by
  simp only [make]
  obtain ⟨k, hk, hm⟩ := exists_further_links maxLinks
  rw [hm, Nat.add_sub_cancel, if_neg (by omega)]
  have hfilled := Nat.div_mul_le_self (leaves - 2) k
  rw [Nat.add_sub_cancel, Nat.mul_succ]
  omega

theorem nodes_make_eq_ceilDiv (h : 2 ≤ leaves) :
    (make leaves maxLinks).nodes = (leaves - 1) ⌈/⌉ (max maxLinks 2 - 1) := by
  obtain ⟨k, hk, hm⟩ := exists_further_links maxLinks
  simp only [make]
  rw [hm, Nat.add_sub_cancel, if_neg (by omega), Nat.ceilDiv_eq_add_pred_div, ← Nat.add_div_right _ hk]
  congr 1
  omega

/-- Fewer nodes have too few slots. -/
theorem nodes_make_le {nodes : Nat} (hpos : 0 < nodes) (hslots : nodes - 1 + leaves ≤ nodes * max maxLinks 2) :
    (make leaves maxLinks).nodes ≤ nodes := by
  obtain ⟨k, hk, hm⟩ := exists_further_links maxLinks
  simp only [make]
  rw [hm, Nat.mul_succ] at hslots
  rw [hm, Nat.add_sub_cancel]
  split
  · exact hpos
  · rw [Nat.succ_le_iff, Nat.div_lt_iff_lt_mul hk]
    omega

theorem inDegree_make (node : Nat) : (make leaves maxLinks).inDegree node =
    min ((make leaves maxLinks).nodes - 1 + leaves) ((node + 1) * max maxLinks 2) -
      min ((make leaves maxLinks).nodes - 1 + leaves) (node * max maxLinks 2) := by
  have hlinks : 0 < (make leaves maxLinks).maxLinks := by
    rw [maxLinks_make]
    omega
  rw [inDegree_eq_slotsOf (nodes_make_pos leaves maxLinks), slotsOf_eq hlinks, leaves_make, maxLinks_make]

theorem inDegree_make_le (node : Nat) : (make leaves maxLinks).inDegree node ≤ max maxLinks 2 := by
  rw [inDegree_make, Nat.succ_mul]
  omega

/-- The layout is a tree with its own fan-in. -/
def toReductionTree : ReductionTree leaves (max maxLinks 2) (make leaves maxLinks).nodes where
  root := 0
  parent := (make leaves maxLinks).parent
  receiver := (make leaves maxLinks).leafNode
  root_lt := nodes_make_pos leaves maxLinks
  receiver_lt := leafNode_make_lt
  parent_lt _ := above_lt_nodes_of_parent
  parent_eq_none_iff := parent_eq_none_iff
  leads_to_root := parents_lead_to_root
  inputs_le := by
    intro node _
    have hcard (count : Nat) (p : Nat → Bool) :
        ((Finset.range count).filter fun n => p n = true).card = ((List.range count).filter p).length := by
      rw [Finset.card_def, Finset.filter_val, Finset.range_val, Multiset.range, Multiset.filter_coe,
        Multiset.coe_card]
      simp only [Bool.decide_eq_true]
    have hinputs := inDegree_make_le leaves maxLinks node
    unfold inDegree childCount leafCount children leavesOf at hinputs
    rw [← hcard, ← hcard, leaves_make] at hinputs
    simpa only [beq_iff_eq] using hinputs

/-- What a tree is that spreads leaves over as few nodes as it can, and those over as few levels. -/
structure Balanced (t : TreeLayout) (leaves fanIn : Nat) : Prop where
  /-- One node of the tree takes in each leaf. -/
  taken : ∀ leaf < leaves, ∃! node, node < t.nodes ∧ leaf ∈ t.leavesOf node
  rooted : ∀ node < t.nodes, t.parent node = none ↔ node = 0
  parent_lt : ∀ {node above : Nat}, t.parent node = some above → above < node
  reaches : ∀ node < t.nodes, (·.bind t.parent)^[t.depth node] (some node) = some 0
  inDegree_le : ∀ node, t.inDegree node ≤ fanIn
  /-- Where there is something to sum, only the last node may have slots left. -/
  full : 2 ≤ leaves → ∀ node, node + 1 < t.nodes → t.inDegree node = fanIn
  last : 2 ≤ leaves → 2 ≤ t.inDegree (t.nodes - 1)
  nodes_eq : 2 ≤ leaves → t.nodes = (leaves - 1) ⌈/⌉ (fanIn - 1)
  minimal : IsLeast { nodes | Nonempty (ReductionTree leaves fanIn nodes) } t.nodes
  level : ∀ leaf < leaves, ∀ other < leaves, t.depth (t.leafNode leaf) ≤ t.depth (t.leafNode other) + 1

theorem balanced_make : (make leaves maxLinks).Balanced leaves (max maxLinks 2) := by
  refine ⟨?_, fun _ => parent_eq_none_iff, lt_of_parent, fun _ => iterate_parent,
    inDegree_make_le leaves maxLinks, ?_, ?_, nodes_make_eq_ceilDiv leaves maxLinks,
    ⟨⟨toReductionTree leaves maxLinks⟩, ?_⟩, ?_⟩
  · intro leaf hleaf
    refine ⟨_, ⟨leafNode_make_lt hleaf, mem_leavesOf.2 ⟨hleaf, rfl⟩⟩, ?_⟩
    rintro node ⟨_, hmem⟩
    exact (mem_leavesOf.1 hmem).2.symm
  · intro h node hnode
    have hslots := le_slots_make leaves maxLinks h
    have hbelow : (node + 1) * max maxLinks 2 ≤ ((make leaves maxLinks).nodes - 1) * max maxLinks 2 :=
      Nat.mul_le_mul_right _ (by omega)
    rw [Nat.succ_mul] at hbelow
    rw [inDegree_make, Nat.succ_mul]
    omega
  · intro h
    have hslots := le_slots_make leaves maxLinks h
    rw [inDegree_make, Nat.succ_mul]
    omega
  · rintro nodes ⟨tree⟩
    exact nodes_make_le leaves maxLinks (Nat.zero_lt_of_lt tree.root_lt) tree.slots_le
  · intro leaf hleaf other hother
    exact depth_le_depth_leafNode (leafNode_make_lt hleaf) (leafNode_make_lt hother)

example : (make 10 3).nodes = 5 ∧ (make 10 3).inDegree 3 = 3 ∧ (make 10 3).inDegree 4 = 2 := by decide

end Make

end TreeLayout

end PerceptronMesh

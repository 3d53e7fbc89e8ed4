import Mathlib.Data.List.Nodup
import Mathlib.Data.List.Range
import PerceptronMesh.Partition.Tree

/-!
Where the nodes and leaves of a reduction tree hang. The root has no parent, every other
node has one with a smaller number, and every leaf is taken in by a node of the tree.
-/

namespace PerceptronMesh.TreeLayout

theorem nodes_make_pos (leaves maxLinks : Nat) : 0 < (make leaves maxLinks).nodes := by
  simp only [make]
  split
  · exact Nat.one_pos
  · exact Nat.succ_pos _

@[simp] theorem leaves_make (leaves maxLinks : Nat) : (make leaves maxLinks).leaves = leaves := rfl

/-- The slots of all nodes together have room for every leaf. -/
theorem leafNode_make_lt {leaves maxLinks leaf : Nat} (h : leaf < leaves) :
    (make leaves maxLinks).leafNode leaf < (make leaves maxLinks).nodes := by
  simp only [leafNode, slotOwner, make]
  generalize hm : max maxLinks 2 = m
  have hm2 : 2 ≤ m := by omega
  split
  · have hleaf : leaf = 0 := by omega
    simp [hleaf]
  · obtain ⟨k, rfl⟩ : ∃ k, m = k + 1 := ⟨m - 1, by omega⟩
    simp only [Nat.add_sub_cancel]
    -- the last node starts before the leaves end
    have hroom : leaves - 2 < ((leaves - 2) / k + 1) * k := by
      have hsplit := Nat.div_add_mod (leaves - 2) k
      have hmod := Nat.mod_lt (leaves - 2) (show 0 < k by omega)
      rw [Nat.mul_comm] at hsplit
      rw [Nat.add_mul, Nat.one_mul]
      omega
    rw [Nat.div_lt_iff_lt_mul (by omega)]
    have hslots : ((leaves - 2) / k + 1) * (k + 1) = ((leaves - 2) / k + 1) * k + ((leaves - 2) / k + 1) :=
      Nat.mul_succ _ _
    omega

variable {t : TreeLayout} {node above : Nat}

@[simp] theorem parent_zero : t.parent 0 = none := by simp [parent]

theorem lt_nodes_of_parent (h : t.parent node = some above) : node < t.nodes := by
  unfold parent at h
  split at h
  · cases h
  · omega

theorem above_lt_nodes_of_parent (h : t.parent node = some above) : above < t.nodes :=
  Nat.lt_trans (lt_of_parent h) (lt_nodes_of_parent h)

theorem exists_parent (hpos : node ≠ 0) (hlt : node < t.nodes) : ∃ above, t.parent node = some above := by
  unfold parent
  rw [if_neg (by omega)]
  exact ⟨_, rfl⟩

@[simp] theorem mem_children : node ∈ t.children above ↔ t.parent node = some above := by
  simp only [children, List.mem_filter, List.mem_range, beq_iff_eq, and_iff_right_iff_imp]
  exact lt_nodes_of_parent

@[simp] theorem mem_leavesOf {leaf : Nat} :
    leaf ∈ t.leavesOf node ↔ leaf < t.leaves ∧ t.leafNode leaf = node := by
  simp [leavesOf]

theorem nodup_children : (t.children node).Nodup := List.nodup_range.filter _

end PerceptronMesh.TreeLayout

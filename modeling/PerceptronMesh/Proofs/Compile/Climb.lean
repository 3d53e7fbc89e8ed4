import Mathlib.Logic.Relation
import PerceptronMesh.Proofs.Compile.Senders

/-!
The steps by which sums travel: from a Weight unit into the tree that it is a leaf of, up
that tree, and from its root on to other roots. Every unit has at most one step, a step
lowers the rank of the unit, and steps lead to the root.
-/

namespace PerceptronMesh.Plan

/-- One step of a message of a summed category towards a root. -/
inductive Climb (p : Plan) (c : Category) : UnitId → UnitId → Prop
  | leaf {x y : Subgroup} : x ∈ p.subgroups → y ∈ p.subgroups →
      Climb p c (leafSender x y c) (p.leafOf x y)
  | branch {x : Subgroup} {node above : Nat} : x ∈ p.subgroups → p.tree.parent node = some above →
      Climb p c (.sum x.group x.subgroup node) (.sum x.group x.subgroup above)
  | sibling {x y : Subgroup} {root : UnitId} : x ∈ p.subgroups → y ∈ p.subgroups →
      p.globalRoot = some root → p.reportsTo root y = some (rootOf x) →
      c = .linkDeltaSum ∨ c = .syncGen → Climb p c (rootOf y) (rootOf x)

/-- How far a unit is from the global root at most. Roots rank below the nodes of trees. -/
def climbRank (p : Plan) : UnitId → Nat
  | .weight _ _ _ _ => p.tree.nodes + 3
  | .sum group subgroup node =>
    if node ≠ 0 then node + 2 else if subgroup ≠ 0 then 2 else if group ≠ 0 then 1 else 0
  | .input _ _ | .threshold _ _ | .foreign _ => 0

variable {p : Plan} {c : Category}

theorem leafSender_ne_sum (x y : Subgroup) (group subgroup node : Nat) :
    leafSender x y c ≠ .sum group subgroup node := by
  cases c <;> simp [leafSender, weightOf]

theorem exists_climb_of_node {x : Subgroup} (hx : x ∈ p.subgroups) {node : Nat} (hpos : node ≠ 0)
    (hlt : node < p.tree.nodes) : ∃ above, above < p.tree.nodes ∧
      p.Climb c (.sum x.group x.subgroup node) (.sum x.group x.subgroup above) := by
  obtain ⟨above, habove⟩ := TreeLayout.exists_parent hpos hlt
  exact ⟨above, TreeLayout.above_lt_nodes_of_parent habove, .branch hx habove⟩

/-- Parents lead from every node to the root. -/
theorem climb_to_root {x : Subgroup} (hx : x ∈ p.subgroups) {node : Nat} (hlt : node < p.tree.nodes) :
    Relation.ReflTransGen (p.Climb c) (.sum x.group x.subgroup node) (rootOf x) := by
  induction node using Nat.strong_induction_on with
  | _ node ih =>
    by_cases hpos : node = 0
    · rw [hpos]
      exact .refl
    · obtain ⟨above, habove⟩ := TreeLayout.exists_parent hpos hlt
      have hup := ih above (TreeLayout.lt_of_parent habove) (TreeLayout.above_lt_nodes_of_parent habove)
      exact .head (.branch hx habove) hup

namespace Coherent

variable (hp : p.Coherent)
include hp

theorem nodes_pos : 0 < p.tree.nodes := by
  obtain ⟨maxLinks, htree⟩ := hp.tree_eq
  rw [htree]
  exact TreeLayout.nodes_make_pos _ _

theorem leafNode_lt {y : Subgroup} (hy : y ∈ p.subgroups) : p.tree.leafNode y.index < p.tree.nodes := by
  obtain ⟨maxLinks, htree⟩ := hp.tree_eq
  rw [htree]
  exact TreeLayout.leafNode_make_lt (hp.index_lt hy)

theorem leafSender_inj {a b x y : Subgroup} (ha : a ∈ p.subgroups) (hb : b ∈ p.subgroups)
    (hx : x ∈ p.subgroups) (hy : y ∈ p.subgroups) (h : leafSender a b c = leafSender x y c) :
    a = x ∧ b = y := by
  cases c with
  | backprop => exact (hp.weightOf_inj hb ha hy hx h).symm
  | forward | linkDeltaSum | syncGen | stop => exact hp.weightOf_inj ha hb hx hy h

/-- Every unit has at most one step. -/
theorem climb_functional {a b other : UnitId} (h : p.Climb c a b) (hother : p.Climb c a other) :
    b = other := by
  cases h with
  | leaf hx hy =>
    generalize hsource : leafSender _ _ c = source at hother
    cases hother with
    | leaf ha hb =>
      obtain ⟨rfl, rfl⟩ := hp.leafSender_inj hx hy ha hb hsource
      rfl
    | branch | sibling => exact absurd hsource (leafSender_ne_sum _ _ _ _ _)
  | @branch x node above hx habove =>
    generalize hsource : UnitId.sum x.group x.subgroup node = source at hother
    cases hother with
    | leaf => exact absurd hsource.symm (leafSender_ne_sum _ _ _ _ _)
    | branch ha hparent =>
      obtain ⟨hgroup, hsubgroup, rfl⟩ := UnitId.sum.inj hsource
      rw [hgroup, hsubgroup, Option.some.inj (habove.symm.trans hparent)]
    | sibling =>
      obtain ⟨_, _, rfl⟩ := UnitId.sum.inj hsource
      simp at habove
  | @sibling x y root hx hy hroot hreport =>
    generalize hsource : rootOf y = source at hother
    cases hother with
    | leaf => exact absurd hsource.symm (leafSender_ne_sum _ _ _ _ _)
    | branch _ habove =>
      obtain ⟨_, _, rfl⟩ := UnitId.sum.inj hsource
      simp at habove
    | sibling _ hb hglobal hthere =>
      obtain rfl := hp.rootOf_inj hy hb hsource
      cases hroot.symm.trans hglobal
      exact Option.some.inj (hreport.symm.trans hthere)

/-- A step leads closer to the global root. -/
theorem climbRank_lt {a b : UnitId} (h : p.Climb c a b) : p.climbRank b < p.climbRank a := by
  cases h with
  | @leaf x y hx hy =>
    have hlt := hp.leafNode_lt hy
    have hweight : p.climbRank (leafSender x y c) = p.tree.nodes + 3 := by cases c <;> rfl
    rw [hweight, leafOf, climbRank]
    split_ifs <;> omega
  | branch _ habove =>
    have hlt := TreeLayout.lt_of_parent habove
    simp only [climbRank]
    split_ifs <;> omega
  | sibling hx hy hroot hreport _ =>
    obtain ⟨hzero, ⟨hlater, _⟩ | ⟨hfirst, hother, hgroup⟩⟩ := (hp.reportsTo_root_iff hx hy hroot).1 hreport
    · simp only [rootOf, climbRank, hzero, hlater, ne_eq, not_true_eq_false, not_false_eq_true, if_false,
        if_true]
      split_ifs <;> omega
    · simp only [firstGroup, Topology.bias] at hother hgroup
      simp [rootOf, climbRank, hzero, hfirst, hother, hgroup]

/-- A Weight unit's messages reach the root of the tree it is a leaf of. -/
theorem leaf_climb_to_root {x y : Subgroup} (hx : x ∈ p.subgroups) (hy : y ∈ p.subgroups) :
    Relation.ReflTransGen (p.Climb c) (leafSender x y c) (rootOf x) :=
  .head (.leaf hx hy) (climb_to_root hx (hp.leafNode_lt hy))

theorem globalRoot_eq_zero : p.globalRoot = some (.sum 0 0 0) := by
  obtain ⟨first, _, hgroup, hsubgroup, hroot⟩ := hp.globalRoot_eq
  rw [hroot, rootOf, hgroup, hsubgroup]
  rfl

/-- Only the global root has nowhere to report to. -/
theorem exists_climb_of_root {y : Subgroup} (hy : y ∈ p.subgroups) (hother : rootOf y ≠ .sum 0 0 0)
    (hc : c = .linkDeltaSum ∨ c = .syncGen) : ∃ x ∈ p.subgroups, x.subgroup = 0 ∧
      (y.subgroup = 0 → x.group = 0) ∧ p.Climb c (rootOf y) (rootOf x) := by
  by_cases hzero : y.subgroup = 0
  · have hgroup : y.group ≠ p.firstGroup := by
      intro hfirst
      rw [rootOf, hzero, hfirst] at hother
      exact hother rfl
    obtain ⟨x, hx, hxgroup, hxzero⟩ := hp.complete (hp.count_pos 0 hp.groups_pos)
    have hreport := (hp.reportsTo_root_iff hx hy hp.globalRoot_eq_zero).2
      ⟨hxzero, .inr ⟨hzero, hgroup, hxgroup⟩⟩
    exact ⟨x, hx, hxzero, fun _ => hxgroup, .sibling hx hy hp.globalRoot_eq_zero hreport hc⟩
  · obtain ⟨x, hx, hxgroup, hxzero⟩ := hp.complete (hp.count_pos _ (hp.group_lt hy))
    have hreport := (hp.reportsTo_root_iff hx hy hp.globalRoot_eq_zero).2
      ⟨hxzero, .inl ⟨hzero, hxgroup.symm⟩⟩
    exact ⟨x, hx, hxzero, fun h => absurd h hzero, .sibling hx hy hp.globalRoot_eq_zero hreport hc⟩

theorem not_climb_globalRoot {b : UnitId} : ¬p.Climb c (.sum 0 0 0) b := by
  intro h
  have hlt := hp.climbRank_lt h
  simp [climbRank] at hlt

/-- Roots lead on to the global root, the later subgroups' by way of the first one. -/
theorem root_climb_to_globalRoot {y : Subgroup} (hy : y ∈ p.subgroups)
    (hc : c = .linkDeltaSum ∨ c = .syncGen) :
    Relation.ReflTransGen (p.Climb c) (rootOf y) (.sum 0 0 0) := by
  have hfrom {x : Subgroup} (hx : x ∈ p.subgroups) (hzero : x.subgroup = 0) :
      Relation.ReflTransGen (p.Climb c) (rootOf x) (.sum 0 0 0) := by
    by_cases hglobal : rootOf x = .sum 0 0 0
    · rw [hglobal]
    · obtain ⟨z, _, hz, hgroup, hclimb⟩ := hp.exists_climb_of_root hx hglobal hc
      have hroot : rootOf z = .sum 0 0 0 := by rw [rootOf, hgroup hzero, hz]
      exact hroot ▸ .single hclimb
  by_cases hglobal : rootOf y = .sum 0 0 0
  · rw [hglobal]
  · obtain ⟨x, hx, hzero, _, hclimb⟩ := hp.exists_climb_of_root hy hglobal hc
    exact .head hclimb (hfrom hx hzero)

end Coherent

end PerceptronMesh.Plan

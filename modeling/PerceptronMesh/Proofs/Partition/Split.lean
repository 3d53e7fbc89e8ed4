import Mathlib.Logic.ExistsUnique
import PerceptronMesh.Proofs.Partition.Plan

/-!
The subgroups of a group as ranges of its units. The ranges lie one after another without gaps,
so every unit is in one of them.
-/

namespace PerceptronMesh

open Numeric

theorem sum_take_add_le (sizes : List Nat) (k : Nat) :
    (sizes.take k).sum + sizes.getD k 0 ≤ sizes.sum := by
  induction sizes generalizing k with
  | nil => simp
  | cons size rest ih =>
    cases k with
    | zero =>
      rw [List.take_zero, List.sum_nil, List.sum_cons, Nat.zero_add]
      exact Nat.le_add_right _ _
    | succ k =>
      rw [List.take_succ_cons, List.sum_cons, List.sum_cons, Nat.add_assoc]
      exact Nat.add_le_add_left (ih k) _

/-- Parts laid one after another cover every position once. -/
theorem existsUnique_part {sizes : List Nat} {u : Nat} (hu : u < sizes.sum) :
    ∃! k, (sizes.take k).sum ≤ u ∧ u < (sizes.take k).sum + sizes.getD k 0 := by
  induction sizes generalizing u with
  | nil => exact absurd hu (Nat.not_lt_zero u)
  | cons size rest ih =>
    by_cases hfirst : u < size
    · refine ⟨0, ⟨Nat.zero_le _, by simpa using hfirst⟩, ?_⟩
      rintro (_ | k) ⟨hstart, _⟩
      · rfl
      · rw [List.take_succ_cons, List.sum_cons] at hstart
        omega
    · have hrest : u - size < rest.sum := by
        rw [List.sum_cons] at hu
        omega
      obtain ⟨k, ⟨hstart, hend⟩, hunique⟩ := ih hrest
      refine ⟨k + 1, ?_, ?_⟩
      · simp only [List.take_succ_cons, List.sum_cons, List.getD_cons_succ]
        omega
      · rintro (_ | other) ⟨hother, hbound⟩
        · rw [List.take_zero, List.sum_nil, Nat.zero_add, List.getD_cons_zero] at hbound
          exact absurd hbound hfirst
        · rw [List.take_succ_cons, List.sum_cons] at hother hbound
          rw [List.getD_cons_succ] at hbound
          rw [hunique other ⟨by omega, by omega⟩]

theorem sum_take_succ (sizes : List Nat) (n : Nat) :
    (sizes.take (n + 1)).sum = (sizes.take n).sum + sizes.getD n 0 := by
  rw [List.take_add_one, List.sum_append_nat, List.getD_eq_getElem?_getD]
  cases sizes[n]? <;> simp

/-- Parts cut one after another make up the front of a list. -/
theorem flatMap_parts {α : Type} (sizes : List Nat) (items : List α) (n : Nat) :
    ((List.range n).flatMap fun k => (items.drop (sizes.take k).sum).take (sizes.getD k 0)) =
      items.take (sizes.take n).sum := by
  induction n with
  | zero => simp
  | succ n ih =>
    rw [List.range_succ, List.flatMap_append, ih, sum_take_succ, List.take_add]
    simp

theorem sum_splitUnits {units cap : Nat} (hunits : 0 < units) (hcap : 0 < cap) :
    (splitUnits units cap).sum = units := by
  have hcount : cap * ((units + cap - 1) / cap - 1) ≤ units := by
    have hdiv := Nat.div_mul_le_self (units + cap - 1) cap
    rw [Nat.mul_sub, Nat.mul_one, Nat.mul_comm]
    omega
  rw [splitUnits, List.sum_append_nat, List.sum_replicate_nat]
  simp only [List.sum_cons, List.sum_nil, Nat.add_zero]
  rw [Nat.mul_comm _ cap, Nat.add_sub_cancel' hcount]

namespace Group

variable {g : Group} {subgroup u : Nat}

/-- A unit of the group belongs to a subgroup. -/
def Contains (g : Group) (subgroup u : Nat) : Prop :=
  g.subgroupOffset subgroup ≤ u ∧ u < g.subgroupOffset subgroup + g.subgroupUnits subgroup

theorem Contains.getElem?_subunits (h : g.Contains subgroup u) :
    g.subunits[subgroup]? = some (g.subgroupUnits subgroup) := by
  unfold subgroupUnits
  rw [List.getD_eq_getElem?_getD]
  cases hget : g.subunits[subgroup]? with
  | some size => rfl
  | none =>
    have hnone : g.subgroupUnits subgroup = 0 := by
      rw [subgroupUnits, List.getD_eq_getElem?_getD, hget]
      rfl
    obtain ⟨hstart, hend⟩ := h
    omega

namespace SoundAt

variable {position cap : Nat} (hg : g.SoundAt position cap) (hcap : 0 < cap)
include hg hcap

theorem sum_subunits : g.subunits.sum = g.units := by
  rw [hg.subunits_eq, sum_splitUnits hg.units_pos hcap]

/-- A subgroup's units are units of the group. -/
theorem offset_add_units_le (subgroup : Nat) :
    g.subgroupOffset subgroup + g.subgroupUnits subgroup ≤ g.units := by
  rw [← hg.sum_subunits hcap]
  exact sum_take_add_le g.subunits subgroup

/-- Every unit is in one subgroup. -/
theorem existsUnique_contains (hu : u < g.units) : ∃! subgroup, g.Contains subgroup u :=
  existsUnique_part (by rwa [hg.sum_subunits hcap])

end SoundAt

end Group

namespace Topology.Sound

variable {t : Topology} (ht : t.Sound) {limits : Limits} {p : Plan} (hplan : Plan.make t limits = .ok p)
include ht hplan

/-- A planned subgroup is one of a group of the topology. -/
theorem exists_group_of_subgroup {x : Subgroup} (hx : x ∈ p.subgroups) :
    ∃ g, t.group? x.group = some g ∧ g.subunits[x.subgroup]? = some x.units := by
  obtain ⟨_, _, rfl⟩ := Plan.make_eq_ok_iff.1 hplan
  obtain ⟨i, g, hg, hgroup, hunits, _⟩ := mem_enumerateSubgroups.1 hx
  exact ⟨g, by rw [hgroup, (ht.placed hg).id_eq]; exact hg, hunits⟩

/-- Its units are a range of the group's, which is within the limits. -/
theorem exists_range_of_subgroup {x : Subgroup} (hx : x ∈ p.subgroups) :
    ∃ g, t.group? x.group = some g ∧ x.group = g.id ∧ g.subgroupUnits x.subgroup = x.units ∧
      g.subgroupOffset x.subgroup + x.units ≤ g.units ∧ g.units ≤ limits.maxGroupUnits := by
  obtain ⟨g, hg, hunits⟩ := ht.exists_group_of_subgroup hplan hx
  have hplaced := ht.placed hg
  have hown : g.subgroupUnits x.subgroup = x.units := by
    rw [Group.subgroupUnits, List.getD_eq_getElem?_getD, hunits, Option.getD_some]
  have hfit := hplaced.offset_add_units_le ht.cap_pos x.subgroup
  rw [hown] at hfit
  refine ⟨g, hg, hplaced.id_eq.symm, hown, hfit, Nat.le_of_not_lt ?_⟩
  intro hlarge
  have hover : g ∈ t.oversizedGroups limits.maxGroupUnits :=
    List.mem_filter.2 ⟨List.mem_of_getElem? hg, by simpa using hlarge⟩
  obtain ⟨_, hsizes, _⟩ := Plan.make_eq_ok_iff.1 hplan
  rw [hsizes] at hover
  cases hover

theorem exists_subgroup {id : GroupId} {g : Group} (hg : t.group? id = some g) {subgroup units : Nat}
    (hunits : g.subunits[subgroup]? = some units) :
    ∃ x ∈ p.subgroups, x.group = id ∧ x.subgroup = subgroup ∧ x.units = units := by
  obtain ⟨_, _, rfl⟩ := Plan.make_eq_ok_iff.1 hplan
  let index := 0 + ((t.groups.map Group.subgroups).take id).sum + subgroup
  exact ⟨⟨id, subgroup, units, index⟩, mem_enumerateSubgroups.2
    ⟨id, g, hg, (ht.placed hg).id_eq.symm, hunits, rfl⟩, rfl, rfl, rfl⟩

end Topology.Sound

end PerceptronMesh

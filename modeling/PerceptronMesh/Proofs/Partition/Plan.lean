import Mathlib.Algebra.GroupWithZero.Nat
import Mathlib.Order.Monotone.Basic
import PerceptronMesh.Partition.Plan
import PerceptronMesh.Proofs.Partition.Tree
import PerceptronMesh.Proofs.Topology.Growth

/-!
Look-ups in the plan of a sound topology. Subgroups are numbered group by group, a
subgroup is known by its group and its number in it, and the output groups' subgroups form
one chain without repeats.
-/

namespace PerceptronMesh

namespace Numeric

@[simp] theorem total_eq_sum (ns : List Nat) : total ns = ns.sum := rfl

theorem total_words (words : List UInt32) : total words = .ofNat (words.map UInt32.toNat).sum := by
  rw [← UInt32.toNat_inj, toNat_total32, UInt32.toNat_ofNat']
  rfl

theorem total_words_perm {words others : List UInt32} (h : words.Perm others) : total words = total others := by
  rw [total_words, total_words, (h.map UInt32.toNat).sum_nat]

end Numeric

@[simp] theorem length_subgroupsFrom (group : GroupId) (subunits : List Nat) (start : Nat) :
    (subgroupsFrom group subunits start).length = subunits.length := by
  simp [subgroupsFrom]

theorem mem_subgroupsFrom {group : GroupId} {subunits : List Nat} {start : Nat} {sg : Subgroup} :
    sg ∈ subgroupsFrom group subunits start ↔
      sg.group = group ∧ subunits[sg.subgroup]? = some sg.units ∧ sg.index = start + sg.subgroup := by
  simp only [subgroupsFrom, List.mem_mapIdx]
  constructor
  · rintro ⟨s, hs, rfl⟩
    exact ⟨rfl, List.getElem?_eq_getElem hs, rfl⟩
  · rintro ⟨rfl, hunits, hindex⟩
    obtain ⟨hs, hget⟩ := List.getElem?_eq_some_iff.1 hunits
    exact ⟨sg.subgroup, hs, by rw [hget, ← hindex]⟩

theorem map_index_subgroupsFrom (group : GroupId) (subunits : List Nat) (start : Nat) :
    (subgroupsFrom group subunits start).map (·.index) = List.range' start subunits.length := by
  apply List.ext_getElem
  · simp
  · intro i _ _
    simp [subgroupsFrom]

@[simp] theorem length_enumerateSubgroups (groups : List Group) (start : Nat) :
    (enumerateSubgroups groups start).length = (groups.map Group.subgroups).sum := by
  induction groups generalizing start with
  | nil => rfl
  | cons g rest ih => simp [enumerateSubgroups, ih, Group.subgroups]

/-- Indices run through without a gap. -/
theorem map_index_enumerateSubgroups (groups : List Group) (start : Nat) :
    (enumerateSubgroups groups start).map (·.index) =
      List.range' start (groups.map Group.subgroups).sum := by
  induction groups generalizing start with
  | nil => rfl
  | cons g rest ih =>
    rw [enumerateSubgroups, List.map_append, map_index_subgroupsFrom, ih, List.map_cons, List.sum_cons]
    exact List.range'_append_1 ..

/-- Where a subgroup stands in the numbering that starts at `start`. -/
theorem mem_enumerateSubgroups {groups : List Group} {start : Nat} {sg : Subgroup} :
    sg ∈ enumerateSubgroups groups start ↔
      ∃ i g, groups[i]? = some g ∧ sg.group = g.id ∧ g.subunits[sg.subgroup]? = some sg.units ∧
        sg.index = start + ((groups.map Group.subgroups).take i).sum + sg.subgroup := by
  induction groups generalizing start with
  | nil => simp [enumerateSubgroups]
  | cons g rest ih =>
    rw [enumerateSubgroups, List.mem_append, mem_subgroupsFrom, ih]
    constructor
    · rintro (⟨hgroup, hunits, hindex⟩ | ⟨i, other, hother, hgroup, hunits, hindex⟩)
      · exact ⟨0, g, rfl, hgroup, hunits, by simpa using hindex⟩
      · refine ⟨i + 1, other, hother, hgroup, hunits, ?_⟩
        rw [hindex, List.map_cons, List.take_succ_cons, List.sum_cons]
        omega
    · rintro ⟨i, other, hother, hgroup, hunits, hindex⟩
      cases i with
      | zero =>
        cases hother
        exact .inl ⟨hgroup, hunits, by simpa using hindex⟩
      | succ i =>
        refine .inr ⟨i, other, hother, hgroup, hunits, ?_⟩
        rw [hindex, List.map_cons, List.take_succ_cons, List.sum_cons]
        omega

namespace Plan

/-- What wiring and scoreboards rely on when they look subgroups up. -/
structure Coherent (p : Plan) : Prop where
  index_eq : p.subgroups.map (·.index) = List.range p.total
  place : ∀ sg ∈ p.subgroups,
    sg.subgroup < p.subgroupCount sg.group ∧ sg.index = p.groupStart sg.group + sg.subgroup
  complete : ∀ {group subgroup : Nat}, subgroup < p.subgroupCount group →
    ∃ sg ∈ p.subgroups, sg.group = group ∧ sg.subgroup = subgroup
  groups_pos : 0 < p.groupCount
  count_pos : ∀ group < p.groupCount, 0 < p.subgroupCount group
  chain_nodup : p.outputChain.Nodup
  chain_lt : ∀ group ∈ p.outputChain, group < p.groupCount
  tree_eq : ∃ maxLinks, p.tree = .make p.total maxLinks

end Plan

theorem length_splitUnits_pos (units cap : Nat) : 0 < (splitUnits units cap).length := by
  simp [splitUnits]

/-- Planning succeeds exactly within the limits, and answers from the topology's own groups. -/
theorem Plan.make_eq_ok_iff {t : Topology} {limits : Limits} {p : Plan} :
    Plan.make t limits = .ok p ↔ limits.validate = .ok () ∧ t.oversizedGroups limits.maxGroupUnits = [] ∧
      p = { subgroups := enumerateSubgroups t.groups 0
            counts := t.groups.map Group.subgroups
            outputChain := t.outputChain
            tree := .make (enumerateSubgroups t.groups 0).length limits.maxSumLinks } := by
  unfold Plan.make
  rw [bind_eq_ok_iff]
  constructor
  · rintro ⟨_, hvalid, h⟩
    split at h
    · cases h
    · rename_i hsizes
      cases h
      exact ⟨hvalid, hsizes, rfl⟩
  · rintro ⟨hvalid, hsizes, rfl⟩
    exact ⟨(), hvalid, by rw [hsizes]; rfl⟩

theorem Topology.Sound.coherent {t : Topology} {limits : Limits} {p : Plan} (ht : t.Sound)
    (h : Plan.make t limits = .ok p) : p.Coherent := by
  obtain ⟨-, -, rfl⟩ := Plan.make_eq_ok_iff.1 h
  have hcount {group : Nat} {g : Group} (hg : t.groups[group]? = some g) :
      (t.groups.map Group.subgroups).getD group 0 = g.subunits.length := by
    simp [hg, Group.subgroups]
  refine ⟨?_, ?_, ?_, by simpa [Plan.groupCount] using ht.groups_pos, ?_, ht.chain_nodup,
    by simpa [Plan.groupCount] using ht.chain_lt, limits.maxSumLinks, rfl⟩
  · rw [map_index_enumerateSubgroups, Plan.total, length_enumerateSubgroups, List.range_eq_range']
  · intro sg hsg
    obtain ⟨i, g, hg, hgroup, hunits, hindex⟩ := mem_enumerateSubgroups.1 hsg
    rw [(ht.placed hg).id_eq] at hgroup
    subst hgroup
    refine ⟨?_, by simpa [Plan.groupStart] using hindex⟩
    rw [Plan.subgroupCount, hcount hg]
    exact (List.getElem?_eq_some_iff.1 hunits).1
  · intro group subgroup hlt
    rw [Plan.subgroupCount, List.getD_eq_getElem?_getD] at hlt
    cases hg : t.groups[group]? with
    | none => simp [hg] at hlt
    | some g =>
      simp only [List.getElem?_map, hg, Option.map_some, Option.getD_some, Group.subgroups] at hlt
      let index := 0 + ((t.groups.map Group.subgroups).take group).sum + subgroup
      have hmem : ⟨g.id, subgroup, g.subunits[subgroup], index⟩ ∈ enumerateSubgroups t.groups 0 :=
        mem_enumerateSubgroups.2 ⟨group, g, hg, rfl, List.getElem?_eq_getElem hlt, rfl⟩
      exact ⟨_, hmem, (ht.placed hg).id_eq, rfl⟩
  · intro group hlt
    have hlt : group < t.groups.length := by simpa [Plan.groupCount] using hlt
    have hg := List.getElem?_eq_getElem hlt
    rw [Plan.subgroupCount, hcount hg, (ht.placed hg).subunits_eq]
    exact length_splitUnits_pos _ _

theorem Plan.getElem?_subgroupsOf (p : Plan) (group : GroupId) (s : Nat) :
    (p.subgroupsOf group)[s]? = p.subgroup? group s := by
  rw [subgroupsOf, List.getElem?_take, List.getElem?_drop, subgroup?]
  by_cases hlt : s < p.subgroupCount group
  · rw [if_pos hlt, if_neg (Nat.not_le.2 hlt)]
  · rw [if_neg hlt, if_pos (Nat.not_lt.1 hlt)]

namespace Plan.Coherent

variable {p : Plan} (hp : p.Coherent)
include hp

theorem getElem?_eq_some_iff {i : Nat} {sg : Subgroup} :
    p.subgroups[i]? = some sg ↔ sg ∈ p.subgroups ∧ sg.index = i := by
  have hat {j : Nat} {other : Subgroup} (h : p.subgroups[j]? = some other) : other.index = j := by
    have hindex : (p.subgroups.map (·.index))[j]? = some other.index := by simp [h]
    have hlt : j < p.total := (List.getElem?_eq_some_iff.1 h).1
    rw [hp.index_eq, List.getElem?_range hlt] at hindex
    exact (Option.some.inj hindex).symm
  constructor
  · intro h
    exact ⟨List.mem_of_getElem? h, hat h⟩
  · rintro ⟨hmem, rfl⟩
    obtain ⟨j, hj⟩ := List.mem_iff_getElem?.1 hmem
    rwa [hat hj]

theorem index_lt {sg : Subgroup} (h : sg ∈ p.subgroups) : sg.index < p.total :=
  (List.getElem?_eq_some_iff.1 (hp.getElem?_eq_some_iff.2 ⟨h, rfl⟩)).1

theorem eq_of_index_eq {a b : Subgroup} (ha : a ∈ p.subgroups) (hb : b ∈ p.subgroups)
    (h : a.index = b.index) : a = b := by
  have hget := hp.getElem?_eq_some_iff.2 ⟨ha, h⟩
  rw [hp.getElem?_eq_some_iff.2 ⟨hb, rfl⟩] at hget
  exact (Option.some.inj hget).symm

theorem eq_of_place_eq {a b : Subgroup} (ha : a ∈ p.subgroups) (hb : b ∈ p.subgroups)
    (hgroup : a.group = b.group) (hsubgroup : a.subgroup = b.subgroup) : a = b := by
  apply hp.eq_of_index_eq ha hb
  rw [(hp.place a ha).2, (hp.place b hb).2, hgroup, hsubgroup]

theorem nodup_subgroups : p.subgroups.Nodup := by
  apply List.Nodup.of_map (·.index)
  rw [hp.index_eq]
  exact List.nodup_range

theorem group_lt {sg : Subgroup} (h : sg ∈ p.subgroups) : sg.group < p.groupCount := by
  have hlt := (hp.place sg h).1
  by_contra hnot
  simp [subgroupCount, List.getD_eq_getElem?_getD, List.getElem?_eq_none (not_lt.1 hnot)] at hlt

omit hp in
theorem groupStart_succ (group : GroupId) :
    p.groupStart (group + 1) = p.groupStart group + p.subgroupCount group := by
  unfold groupStart subgroupCount
  rw [Numeric.total_eq_sum, Numeric.total_eq_sum, List.take_add_one, List.sum_append_nat, List.getD_eq_getElem?_getD]
  cases p.counts[group]? <;> simp

omit hp in
theorem groupStart_mono : Monotone p.groupStart := by
  apply monotone_nat_of_le_succ
  intro group
  rw [groupStart_succ]
  exact Nat.le_add_right _ _

/-- The indices of different groups do not meet. -/
theorem group_eq_of_index {sg : Subgroup} {group : GroupId} (h : sg ∈ p.subgroups)
    (hlo : p.groupStart group ≤ sg.index)
    (hhi : sg.index < p.groupStart group + p.subgroupCount group) : sg.group = group := by
  obtain ⟨hlt, hindex⟩ := hp.place sg h
  rw [← groupStart_succ] at hhi
  rcases Nat.lt_trichotomy sg.group group with hless | heq | hmore
  · have hmono := groupStart_mono (p := p) (show sg.group + 1 ≤ group from hless)
    rw [groupStart_succ] at hmono
    omega
  · exact heq
  · have hmono := groupStart_mono (p := p) (show group + 1 ≤ sg.group from hmore)
    omega

theorem subgroup?_eq_some_iff {group subgroup : Nat} {sg : Subgroup} :
    p.subgroup? group subgroup = some sg ↔
      sg ∈ p.subgroups ∧ sg.group = group ∧ sg.subgroup = subgroup := by
  unfold subgroup?
  constructor
  · intro h
    split at h
    · cases h
    · rename_i hlt
      obtain ⟨hmem, hindex⟩ := hp.getElem?_eq_some_iff.1 h
      have hgroup : sg.group = group := hp.group_eq_of_index hmem (by omega) (by omega)
      refine ⟨hmem, hgroup, ?_⟩
      have hplace := (hp.place sg hmem).2
      rw [hgroup] at hplace
      omega
  · rintro ⟨hmem, rfl, rfl⟩
    obtain ⟨hlt, hindex⟩ := hp.place sg hmem
    rw [if_neg (by omega)]
    exact hp.getElem?_eq_some_iff.2 ⟨hmem, hindex⟩

theorem subgroup?_of_mem {sg : Subgroup} (h : sg ∈ p.subgroups) :
    p.subgroup? sg.group sg.subgroup = some sg :=
  hp.subgroup?_eq_some_iff.2 ⟨h, rfl, rfl⟩

theorem mem_subgroupsOf {group : GroupId} {sg : Subgroup} :
    sg ∈ p.subgroupsOf group ↔ sg ∈ p.subgroups ∧ sg.group = group := by
  simp only [subgroupsOf, List.mem_iff_getElem?, List.getElem?_take, List.getElem?_drop]
  constructor
  · rintro ⟨i, hi⟩
    split at hi
    · obtain ⟨hmem, hindex⟩ := hp.getElem?_eq_some_iff.1 hi
      exact ⟨List.mem_iff_getElem?.1 hmem, hp.group_eq_of_index hmem (by omega) (by omega)⟩
    · cases hi
  · rintro ⟨hmem, rfl⟩
    have hmem := List.mem_iff_getElem?.2 hmem
    obtain ⟨hlt, hindex⟩ := hp.place sg hmem
    refine ⟨sg.subgroup, ?_⟩
    rw [if_pos hlt]
    exact hp.getElem?_eq_some_iff.2 ⟨hmem, hindex⟩

/-- What all subgroups of a group are given, told from their numbers in it. -/
theorem map_subgroupsOf {α : Type} {group : GroupId} {values : List α} {value : Subgroup → α}
    (hlength : values.length = p.subgroupCount group)
    (hvalue : ∀ sg ∈ p.subgroups, sg.group = group → values[sg.subgroup]? = some (value sg)) :
    (p.subgroupsOf group).map value = values := by
  apply List.ext_getElem?
  intro s
  rw [List.getElem?_map, getElem?_subgroupsOf]
  by_cases hlt : s < p.subgroupCount group
  · obtain ⟨sg, hsg, hgroup, rfl⟩ := hp.complete hlt
    rw [hp.subgroup?_eq_some_iff.2 ⟨hsg, hgroup, rfl⟩, Option.map_some, hvalue sg hsg hgroup]
  · rw [subgroup?, if_pos (Nat.not_lt.1 hlt), Option.map_none,
      List.getElem?_eq_none (hlength ▸ Nat.not_lt.1 hlt)]

theorem nodup_subgroupsOf (group : GroupId) : (p.subgroupsOf group).Nodup :=
  hp.nodup_subgroups.sublist ((List.take_sublist _ _).trans (List.drop_sublist _ _))

theorem subgroupsOf_ne_nil {group : GroupId} (h : group < p.groupCount) : p.subgroupsOf group ≠ [] := by
  obtain ⟨sg, hmem, hgroup, _⟩ := hp.complete (hp.count_pos group h)
  exact List.ne_nil_of_mem (hp.mem_subgroupsOf.2 ⟨hmem, hgroup⟩)

/-- The first subgroup of all holds the global root. -/
theorem exists_first : ∃ first ∈ p.subgroups, p.subgroup? p.firstGroup 0 = some first ∧
    first.group = p.firstGroup ∧ first.subgroup = 0 := by
  obtain ⟨first, hmem, hgroup, hsubgroup⟩ := hp.complete (hp.count_pos 0 hp.groups_pos)
  exact ⟨first, hmem, hp.subgroup?_eq_some_iff.2 ⟨hmem, hgroup, hsubgroup⟩, hgroup, hsubgroup⟩

theorem nodup_stopChain : p.stopChain.Nodup := by
  rw [stopChain, List.nodup_flatMap]
  refine ⟨fun group _ => hp.nodup_subgroupsOf group, hp.chain_nodup.imp ?_⟩
  intro a b hab sg ha hb
  exact hab ((hp.mem_subgroupsOf.1 ha).2.symm.trans (hp.mem_subgroupsOf.1 hb).2)

theorem mem_stopChain {sg : Subgroup} :
    sg ∈ p.stopChain ↔ sg ∈ p.subgroups ∧ sg.group ∈ p.outputChain := by
  simp only [stopChain, List.mem_flatMap, hp.mem_subgroupsOf]
  constructor
  · rintro ⟨group, hgroup, hmem, rfl⟩
    exact ⟨hmem, hgroup⟩
  · rintro ⟨hmem, hgroup⟩
    exact ⟨sg.group, hgroup, hmem, rfl⟩

/-- The chain ends with the subgroup that broadcasts. -/
theorem lastOutput_eq : p.lastOutput = p.stopChain.getLast? := by
  unfold lastOutput stopChain
  have hlt := hp.chain_lt
  rcases List.eq_nil_or_concat p.outputChain with hnil | ⟨before, last, hchain⟩
  · simp [hnil]
  · rw [hchain] at hlt ⊢
    have hne := hp.subgroupsOf_ne_nil (hlt last (by simp))
    simp [List.getLast?_append, List.getLast?_eq_some_getLast hne]

/-- The predecessor stands right in front in the chain. -/
theorem chainPredecessor_eq_some_iff {x y : Subgroup} :
    p.chainPredecessor x = some y ↔ ∃ i, p.stopChain[i]? = some y ∧ p.stopChain[i + 1]? = some x := by
  have hat {i : Nat} (hi : p.stopChain[i]? = some x) : p.stopChain.idxOf? x = some i := by
    obtain ⟨hlt, hget⟩ := List.getElem?_eq_some_iff.1 hi
    refine List.idxOf?_eq_some_iff.2 ⟨hlt, hget, ?_⟩
    intro j hj hother
    rw [← hget] at hother
    have hsame := hp.nodup_stopChain.getElem_inj_iff.1 hother
    omega
  unfold chainPredecessor
  simp only [Option.bind_eq_bind, Option.bind_eq_some_iff]
  constructor
  · rintro ⟨position, hposition, h⟩
    obtain ⟨hlt, hget, _⟩ := List.idxOf?_eq_some_iff.1 hposition
    split at h
    · cases h
    · refine ⟨position - 1, h, ?_⟩
      rw [Nat.sub_add_cancel (by omega)]
      exact List.getElem?_eq_some_iff.2 ⟨hlt, hget⟩
  · rintro ⟨i, hi, hnext⟩
    exact ⟨i + 1, hat hnext, by simpa using hi⟩

theorem mem_of_lastOutput {last : Subgroup} (h : p.lastOutput = some last) : last ∈ p.subgroups := by
  rw [hp.lastOutput_eq] at h
  exact (hp.mem_stopChain.1 (List.mem_of_getLast? h)).1

theorem mem_of_stopChain {i : Nat} {x : Subgroup} (h : p.stopChain[i]? = some x) : x ∈ p.subgroups :=
  (hp.mem_stopChain.1 (List.mem_of_getElem? h)).1

/-- The end of the chain is in front of nobody. -/
theorem chainPredecessor_ne_last {x last : Subgroup} (hlast : p.lastOutput = some last) :
    p.chainPredecessor x ≠ some last := by
  intro h
  obtain ⟨i, hi, hnext⟩ := hp.chainPredecessor_eq_some_iff.1 h
  rw [hp.lastOutput_eq, List.getLast?_eq_getElem?] at hlast
  obtain ⟨hlt, _⟩ := List.getElem?_eq_some_iff.1 hi
  obtain ⟨hnextlt, _⟩ := List.getElem?_eq_some_iff.1 hnext
  have hsame := (List.getElem?_inj hlt hp.nodup_stopChain).1 (hi.trans hlast.symm)
  omega

end Plan.Coherent

end PerceptronMesh

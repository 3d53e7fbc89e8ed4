import PerceptronMesh.Proofs.Compile.Size

/-!
Finding subgroups in a plan. The tables that one pass over the groups fills list every subgroup once, and
from them a subgroup is found by its group and number, the subgroups of a group lie side by side, and the
neighbours of the stop chain find each other.
-/

namespace PerceptronMesh

/-- A subgroup is known by its group and its number in it. -/
def Subgroup.pair (sg : Subgroup) : GroupId × Nat := (sg.group, sg.subgroup)

/-- Subgroups, and beside them every group's first index and its count. -/
structure SubgroupTables where
  subgroups : List Subgroup := []
  starts : List Nat := []
  counts : List Nat := []

namespace SubgroupTables

/-- Appends a group's subgroups, numbered on from those that are there. -/
def withGroup (tables : SubgroupTables) (g : Group) : SubgroupTables where
  subgroups := tables.subgroups ++ subgroupsFrom g.id g.subunits tables.subgroups.length
  starts := tables.starts ++ [tables.subgroups.length]
  counts := tables.counts ++ [g.subgroups]

/-- The tables of a topology, filled group by group. -/
def fill (groups : List Group) : SubgroupTables := groups.foldl withGroup {}

/-- What is appended depends on the tables only through the number of subgroups there. -/
theorem foldl_withGroup (groups : List Group) (tables : SubgroupTables) :
    groups.foldl withGroup tables =
      { subgroups := tables.subgroups ++ enumerateSubgroups groups tables.subgroups.length
        starts := tables.starts ++ (List.range groups.length).map fun i =>
          tables.subgroups.length + ((groups.map Group.subgroups).take i).sum
        counts := tables.counts ++ groups.map Group.subgroups } := by
  induction groups generalizing tables with
  | nil => simp [enumerateSubgroups]
  | cons g rest ih =>
    have hlength : (tables.withGroup g).subgroups.length = tables.subgroups.length + g.subgroups := by
      simp [withGroup, Group.subgroups]
    rw [List.foldl_cons, ih, hlength]
    simp only [withGroup, enumerateSubgroups, List.append_assoc, List.singleton_append, List.map_cons,
      List.length_cons, List.range_succ_eq_map, List.map_map, Function.comp_def, List.take_zero,
      List.take_succ_cons, List.sum_nil, List.sum_cons, Nat.add_zero, Nat.add_assoc]

end SubgroupTables

theorem map_pair_subgroupsFrom (group : GroupId) (subunits : List Nat) (start : Nat) :
    (subgroupsFrom group subunits start).map Subgroup.pair = (List.range subunits.length).map (group, ·) := by
  apply List.ext_getElem
  · simp
  · intro i _ _
    simp [subgroupsFrom, Subgroup.pair]

theorem map_pair_enumerateSubgroups (groups : List Group) (start : Nat) :
    (enumerateSubgroups groups start).map Subgroup.pair =
      groups.flatMap fun g => (List.range g.subgroups).map (g.id, ·) := by
  induction groups generalizing start with
  | nil => rfl
  | cons g rest ih =>
    rw [enumerateSubgroups, List.map_append, map_pair_subgroupsFrom, ih, List.flatMap_cons, Group.subgroups]

namespace Plan

variable {p : Plan}

namespace Coherent

variable (hp : p.Coherent)
include hp

theorem map_pair_subgroupsOf (group : GroupId) :
    (p.subgroupsOf group).map Subgroup.pair = (List.range (p.subgroupCount group)).map (group, ·) := by
  refine hp.map_subgroupsOf (by simp) ?_
  rintro sg hsg rfl
  rw [List.getElem?_map, List.getElem?_range (hp.place sg hsg).1, Option.map_some, Subgroup.pair]

/-- A group's subgroups lie side by side from its start on. -/
theorem map_index_subgroupsOf (group : GroupId) :
    (p.subgroupsOf group).map (·.index) = List.range' (p.groupStart group) (p.subgroupCount group) := by
  refine hp.map_subgroupsOf (by simp) ?_
  rintro sg hsg rfl
  obtain ⟨hlt, hindex⟩ := hp.place sg hsg
  rw [List.getElem?_range' hlt, hindex, Nat.one_mul]

theorem isSome_subgroup?_iff {group subgroup : Nat} :
    (p.subgroup? group subgroup).isSome ↔ subgroup < p.subgroupCount group := by
  constructor
  · intro h
    obtain ⟨sg, hsg⟩ := Option.isSome_iff_exists.1 h
    obtain ⟨hmem, rfl, rfl⟩ := hp.subgroup?_eq_some_iff.1 hsg
    exact (hp.place sg hmem).1
  · intro hlt
    obtain ⟨sg, hsg, hgroup, hsubgroup⟩ := hp.complete hlt
    rw [hp.subgroup?_eq_some_iff.2 ⟨hsg, hgroup, hsubgroup⟩]
    rfl

theorem nodup_pairs : (p.subgroups.map Subgroup.pair).Nodup := by
  refine List.Nodup.map_on ?_ hp.nodup_subgroups
  intro x hx y hy hpair
  exact hp.eq_of_place_eq hx hy (Prod.mk.inj hpair).1 (Prod.mk.inj hpair).2

/-- The chain names each subgroup once, so the position that is found is its only one. -/
theorem idxOf?_stopChain {i : Nat} {x : Subgroup} (h : p.stopChain[i]? = some x) :
    p.stopChain.idxOf? x = some i := by
  obtain ⟨hlt, hget⟩ := List.getElem?_eq_some_iff.1 h
  refine List.idxOf?_eq_some_iff.2 ⟨hlt, hget, ?_⟩
  intro j hj hother
  have hsame := hp.nodup_stopChain.getElem_inj_iff.1 (hother.trans hget.symm)
  omega

theorem chainSuccessor_of_getElem? {i : Nat} {x : Subgroup} (h : p.stopChain[i]? = some x) :
    p.chainSuccessor x = p.stopChain[i + 1]? := by
  rw [chainSuccessor, hp.idxOf?_stopChain h]
  rfl

/-- The successor stands right behind in the chain. -/
theorem chainSuccessor_eq_some_iff {x y : Subgroup} :
    p.chainSuccessor x = some y ↔ ∃ i, p.stopChain[i]? = some x ∧ p.stopChain[i + 1]? = some y := by
  constructor
  · intro h
    unfold chainSuccessor at h
    rw [Option.bind_eq_bind, Option.bind_eq_some_iff] at h
    obtain ⟨i, hi, hnext⟩ := h
    obtain ⟨hlt, hget, _⟩ := List.idxOf?_eq_some_iff.1 hi
    exact ⟨i, List.getElem?_eq_some_iff.2 ⟨hlt, hget⟩, hnext⟩
  · rintro ⟨i, hi, hnext⟩
    rw [hp.chainSuccessor_of_getElem? hi, hnext]

theorem chainSuccessor_eq_none_iff {x : Subgroup} (hx : x ∈ p.stopChain) :
    p.chainSuccessor x = none ↔ p.lastOutput = some x := by
  obtain ⟨i, hi⟩ := List.mem_iff_getElem?.1 hx
  have hlt := (List.getElem?_eq_some_iff.1 hi).1
  rw [hp.chainSuccessor_of_getElem? hi, List.getElem?_eq_none_iff, hp.lastOutput_eq,
    List.getLast?_eq_getElem?]
  constructor
  · intro hle
    rw [← hi]
    congr 1
    omega
  · intro hlast
    have hsame := (List.getElem?_inj hlt hp.nodup_stopChain).1 (hi.trans hlast.symm)
    omega

theorem chainPredecessor_eq_none_iff {x : Subgroup} (hx : x ∈ p.stopChain) :
    p.chainPredecessor x = none ↔ p.stopChain.head? = some x := by
  obtain ⟨i, hi⟩ := List.mem_iff_getElem?.1 hx
  have hlt := (List.getElem?_eq_some_iff.1 hi).1
  rw [List.head?_eq_getElem?]
  constructor
  · intro hnone
    cases i with
    | zero => exact hi
    | succ i =>
      have hbefore := List.getElem?_eq_getElem (Nat.lt_of_succ_lt hlt)
      rw [hp.chainPredecessor_eq_some_iff.2 ⟨i, hbefore, hi⟩] at hnone
      cases hnone
  · intro hhead
    rw [Option.eq_none_iff_forall_ne_some]
    intro y hy
    obtain ⟨j, -, hnext⟩ := hp.chainPredecessor_eq_some_iff.1 hy
    have hsame := (List.getElem?_inj (List.getElem?_eq_some_iff.1 hnext).1 hp.nodup_stopChain).1
      (hnext.trans hhead.symm)
    omega

end Coherent

end Plan

namespace Topology

variable {t : Topology} {limits : Limits} {p : Plan}

/-- A plan answers from what one pass over the groups stores. -/
theorem fill_groups_eq (h : Plan.make t limits = .ok p) : SubgroupTables.fill t.groups =
    ⟨p.subgroups, (List.range p.groupCount).map p.groupStart, p.counts⟩ := by
  obtain ⟨_, _, rfl⟩ := Plan.make_eq_ok_iff.1 h
  simp [SubgroupTables.fill, SubgroupTables.foldl_withGroup, Plan.groupCount, Plan.groupStart]

namespace Sound

variable (ht : t.Sound) (h : Plan.make t limits = .ok p)
include ht h

/-- Group numbers that count are those of the topology's groups. -/
theorem lt_subgroupCount_iff {group subgroup : Nat} :
    subgroup < p.subgroupCount group ↔ ∃ g ∈ t.groups, g.id = group ∧ subgroup < g.subgroups := by
  constructor
  · intro hlt
    obtain ⟨sg, hsg, rfl, rfl⟩ := (ht.coherent h).complete hlt
    obtain ⟨g, hg, hunits⟩ := ht.exists_group_of_subgroup h hsg
    exact ⟨g, List.mem_of_getElem? hg, (ht.placed hg).id_eq, (List.getElem?_eq_some_iff.1 hunits).1⟩
  · rintro ⟨g, hg, rfl, hlt⟩
    rwa [ht.subgroupCount_id h hg]

theorem map_units_subgroupsOf {g : Group} (hg : g ∈ t.groups) :
    (p.subgroupsOf g.id).map (·.units) = g.subunits := by
  refine (ht.coherent h).map_subgroupsOf (ht.subgroupCount_id h hg).symm ?_
  intro sg hsg hgroup
  obtain ⟨other, hother, hunits⟩ := ht.exists_group_of_subgroup h hsg
  rw [hgroup, ht.group?_id hg] at hother
  cases hother
  exact hunits

end Sound

/-- Plans list the subgroups of a topology group by group, each once and at the index that it carries, and
answer from the tables of one pass over the groups. A subgroup is found exactly for the numbers that its group
has. The subgroups of a group lie side by side and share out its units. The stop chain repeats nobody,
successors and predecessors undo each other, and only its ends lack one of them. All subgroups together hear
one sibling less than there are subgroups. -/
theorem Reachable.lookup_spec (ht : t.Reachable) (h : Plan.make t limits = .ok p) :
    SubgroupTables.fill t.groups =
      ⟨p.subgroups, (List.range p.groupCount).map p.groupStart, p.counts⟩ ∧
    (p.subgroups.map Subgroup.pair = t.groups.flatMap (fun g => (List.range g.subgroups).map (g.id, ·)) ∧
      (p.subgroups.map Subgroup.pair).Nodup ∧ p.subgroups.map (·.index) = List.range p.subgroups.length) ∧
    (∀ group subgroup, (p.subgroup? group subgroup).isSome ↔
      ∃ g ∈ t.groups, g.id = group ∧ subgroup < g.subgroups) ∧
    (∀ group subgroup sg, p.subgroup? group subgroup = some sg ↔
      sg ∈ p.subgroups ∧ sg.group = group ∧ sg.subgroup = subgroup) ∧
    (∀ g ∈ t.groups,
      (p.subgroupsOf g.id).map Subgroup.pair = (List.range g.subgroups).map (g.id, ·) ∧
      (p.subgroupsOf g.id).map (·.index) = List.range' (p.groupStart g.id) g.subgroups ∧
      (∀ sg, sg ∈ p.subgroupsOf g.id ↔ sg ∈ p.subgroups ∧ sg.group = g.id) ∧
      ((p.subgroupsOf g.id).map (·.units)).sum = g.units) ∧
    (p.stopChain.Nodup ∧ (∀ x y, p.chainSuccessor x = some y ↔ p.chainPredecessor y = some x) ∧
      ∀ x ∈ p.stopChain, (p.chainSuccessor x = none ↔ p.lastOutput = some x) ∧
        (p.chainPredecessor x = none ↔ p.stopChain.head? = some x)) ∧
    (p.subgroups.map p.siblingCount).sum + 1 = p.subgroups.length := by
  have hsound := ht.sound
  have hp := hsound.coherent h
  refine ⟨fill_groups_eq h, ⟨?_, hp.nodup_pairs, hp.index_eq⟩, ?_, fun _ _ _ => hp.subgroup?_eq_some_iff, ?_,
    ⟨hp.nodup_stopChain, ?_, fun x hx => ⟨hp.chainSuccessor_eq_none_iff hx, hp.chainPredecessor_eq_none_iff hx⟩⟩,
    hp.sum_siblingCount⟩
  · obtain ⟨_, _, rfl⟩ := Plan.make_eq_ok_iff.1 h
    exact map_pair_enumerateSubgroups t.groups 0
  · intro group subgroup
    rw [hp.isSome_subgroup?_iff, hsound.lt_subgroupCount_iff h]
  · intro g hg
    have hcount := hsound.subgroupCount_id h hg
    refine ⟨hcount ▸ hp.map_pair_subgroupsOf g.id, hcount ▸ hp.map_index_subgroupsOf g.id,
      fun _ => hp.mem_subgroupsOf, ?_⟩
    rw [hsound.map_units_subgroupsOf h hg]
    exact (hsound.placed (hsound.group?_id hg)).sum_subunits hsound.cap_pos
  · intro x y
    rw [hp.chainSuccessor_eq_some_iff, hp.chainPredecessor_eq_some_iff]

/-- Two output groups, the first in two parts: the middle of the chain has both neighbours. -/
theorem lookup_spec_outputs : ∃ t first second p, make 2 = .ok t ∧
    t.addGroup 3 (Roles.ofList [.output]) none none none = .ok (1, first) ∧
    first.addGroup 1 (Roles.ofList [.output]) none none none = .ok (2, second) ∧
    Plan.make second {} = .ok p ∧
    p.subgroups = [⟨0, 0, 1, 0⟩, ⟨1, 0, 2, 1⟩, ⟨1, 1, 1, 2⟩, ⟨2, 0, 1, 3⟩] ∧
    p.chainPredecessor ⟨1, 1, 1, 2⟩ = some ⟨1, 0, 2, 1⟩ ∧ p.chainSuccessor ⟨1, 1, 1, 2⟩ = some ⟨2, 0, 1, 3⟩ ∧
    p.chainSuccessor ⟨1, 0, 2, 1⟩ = some ⟨1, 1, 1, 2⟩ ∧ (p.subgroups.map p.siblingCount).sum = 3 := by
  obtain ⟨t, first, second, p, hmake, hfirst, hsecond, hplan, hsubgroups, hbefore, hafter⟩ :
      ∃ t first second p, make 2 = .ok t ∧
        t.addGroup 3 (Roles.ofList [.output]) none none none = .ok (1, first) ∧
        first.addGroup 1 (Roles.ofList [.output]) none none none = .ok (2, second) ∧
        Plan.make second {} = .ok p ∧
        p.subgroups = [⟨0, 0, 1, 0⟩, ⟨1, 0, 2, 1⟩, ⟨1, 1, 1, 2⟩, ⟨2, 0, 1, 3⟩] ∧
        p.chainPredecessor ⟨1, 1, 1, 2⟩ = some ⟨1, 0, 2, 1⟩ ∧
        p.chainSuccessor ⟨1, 1, 1, 2⟩ = some ⟨2, 0, 1, 3⟩ :=
    ⟨_, _, _, _, rfl, rfl, rfl, rfl, rfl, rfl, rfl⟩
  obtain ⟨_, _, _, _, _, ⟨_, hneighbours, _⟩, hsiblings⟩ :=
    Reachable.lookup_spec (.addGroup (.addGroup (.make hmake) hfirst) hsecond) hplan
  rw [congrArg List.length hsubgroups] at hsiblings
  exact ⟨t, first, second, p, hmake, hfirst, hsecond, hplan, hsubgroups, hbefore, hafter,
    (hneighbours _ _).2 hbefore, Nat.succ.inj hsiblings⟩

end Topology

end PerceptronMesh

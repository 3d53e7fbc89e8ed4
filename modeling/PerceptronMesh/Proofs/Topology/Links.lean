import Mathlib.Data.List.Forall2
import PerceptronMesh.Proofs.Topology.Growth

/-!
Declared links. However a topology was obtained, a group lists the sources of the links into it,
each once. This goes on to hold when parameters are set, weights are read or values are bound.
-/

namespace PerceptronMesh

/-- What growth settles of a group, as opposed to what is set or loaded later. -/
structure Group.SameShape (g later : Group) : Prop where
  id_eq : later.id = g.id
  units_eq : later.units = g.units
  subunits_eq : later.subunits = g.subunits
  linksFrom_eq : later.linksFrom = g.linksFrom

namespace Topology

/-- Topologies that calls can build, whatever is set of their groups or loaded into them
between the calls. -/
inductive Obtained : Topology → Prop
  | make {cap : Nat} {t : Topology} : make cap = .ok t → Obtained t
  | addGroup {t grown : Topology} {units : Nat} {roles : Roles}
      {inputFunctions : Option (List InputFunction)} {outputFunctions : Option (List OutputFunction)}
      {label : Option String} {id : GroupId} :
      Obtained t → t.addGroup units roles inputFunctions outputFunctions label = .ok (id, grown) →
      Obtained grown
  | addLink {t linked : Topology} {source destination : GroupId} {label : Option String} {id : Nat} :
      Obtained t → t.addLink source destination label = .ok (id, linked) → Obtained linked
  | setGroups {t : Topology} {groups : List Group} :
      Obtained t → List.Forall₂ Group.SameShape t.groups groups → Obtained { t with groups }

/-- A group lists the sources of the links into it without repeats. -/
structure Linked (t : Topology) : Prop where
  link_lt : ∀ l ∈ t.links, l.source < t.groups.length ∧ l.destination < t.groups.length
  nodup_linksFrom : ∀ {i : Nat} {g : Group}, t.groups[i]? = some g → g.linksFrom.Nodup
  mem_linksFrom_iff : ∀ {i : Nat} {g : Group}, t.groups[i]? = some g → ∀ source,
    source ∈ g.linksFrom ↔ ∃ l ∈ t.links, l.source = source ∧ l.destination = i

variable {t : Topology}

theorem groups_withLink (source destination : GroupId) (label : String) (i : Nat) :
    (t.withLink source destination label).groups[i]? = t.groups[i]?.map fun g =>
      if destination = i then { g with linksFrom := g.linksFrom ++ [source] } else g := by
  simp only [withLink, modifyGroup, List.getElem?_modify, Option.map_eq_map]

theorem not_linked_of_addLink {source destination : GroupId} {label : Option String} {id : Nat}
    {linked : Topology} (h : t.addLink source destination label = .ok (id, linked)) {g : Group}
    (hg : t.groups[destination]? = some g) : source ∉ g.linksFrom := by
  have htarget : t.group? destination = some g := hg
  unfold addLink at h
  rw [htarget] at h
  cases hsource : t.group? source with
  | none =>
    rw [hsource] at h
    cases h
  | some from_ =>
    rw [hsource] at h
    intro hmem
    have hdeclared : g.isLinkedFrom source = true := List.contains_iff_mem.2 hmem
    simp only [hdeclared, if_pos] at h
    cases h

/-- What is set of groups leaves each at its position. -/
theorem exists_of_forall₂_getElem? {R : Group → Group → Prop} {groups : List Group}
    (h : List.Forall₂ R t.groups groups) {i : Nat} {later : Group} (hlater : groups[i]? = some later) :
    ∃ g, t.groups[i]? = some g ∧ R g later := by
  obtain ⟨hlt, rfl⟩ := List.getElem?_eq_some_iff.1 hlater
  have hbefore : i < t.groups.length := h.length_eq ▸ hlt
  exact ⟨_, List.getElem?_eq_getElem hbefore, h.get hbefore hlt⟩

namespace Linked

variable (h : t.Linked)
include h

theorem withLink {source destination : GroupId} (hsource : source < t.groups.length)
    (hdestination : destination < t.groups.length)
    (hnew : ∀ g, t.groups[destination]? = some g → source ∉ g.linksFrom) (label : String) :
    (t.withLink source destination label).Linked where
  link_lt := by
    intro l hl
    rw [length_groups_withLink]
    rcases List.mem_append.1 hl with hold | hadded
    · exact h.link_lt l hold
    · rw [List.mem_singleton.1 hadded]
      exact ⟨hsource, hdestination⟩
  nodup_linksFrom := by
    intro i g hg
    rw [groups_withLink, Option.map_eq_some_iff] at hg
    obtain ⟨before, hbefore, rfl⟩ := hg
    by_cases hi : destination = i
    · subst hi
      rw [if_pos rfl, ← List.concat_eq_append]
      exact (h.nodup_linksFrom hbefore).concat (hnew before hbefore)
    · rw [if_neg hi]
      exact h.nodup_linksFrom hbefore
  mem_linksFrom_iff := by
    intro i g hg other
    rw [groups_withLink, Option.map_eq_some_iff] at hg
    obtain ⟨before, hbefore, rfl⟩ := hg
    have hadded : (∃ l ∈ (t.withLink source destination label).links, l.source = other ∧ l.destination = i) ↔
        (∃ l ∈ t.links, l.source = other ∧ l.destination = i) ∨ source = other ∧ destination = i := by
      simp only [Topology.withLink, modifyGroup, List.mem_append, List.mem_singleton, or_and_right,
        exists_or, exists_eq_left]
    rw [hadded, ← h.mem_linksFrom_iff hbefore]
    by_cases hi : destination = i
    · simp [hi, eq_comm]
    · simp [hi]

/-- A group that nothing is linked into can join. -/
theorem append {g : Group} (hg : g.linksFrom = []) (chain : List GroupId) :
    ({ t with groups := t.groups ++ [g], outputChain := chain } : Topology).Linked := by
  refine ⟨?_, ?_, ?_⟩
  · intro l hl
    rw [List.length_append]
    exact ⟨Nat.lt_add_right _ (h.link_lt l hl).1, Nat.lt_add_right _ (h.link_lt l hl).2⟩
  · intro i other hother
    obtain hold | ⟨_, rfl⟩ := eq_some_or_of_getElem?_concat hother
    · exact h.nodup_linksFrom hold
    · rw [hg]
      exact List.nodup_nil
  · intro i other hother source
    obtain hold | ⟨rfl, rfl⟩ := eq_some_or_of_getElem?_concat hother
    · exact h.mem_linksFrom_iff hold source
    · rw [hg]
      refine iff_of_false List.not_mem_nil ?_
      rintro ⟨l, hl, _, hdestination⟩
      exact Nat.lt_irrefl _ (hdestination ▸ (h.link_lt l hl).2)

theorem addLink {source destination : GroupId} {label : Option String} {id : Nat} {linked : Topology}
    (hlink : t.addLink source destination label = .ok (id, linked)) : linked.Linked := by
  obtain ⟨hsource, hdestination, label, rfl⟩ := addLink_eq_ok hlink
  exact h.withLink hsource hdestination (fun _ hg => not_linked_of_addLink hlink hg) label

theorem addGroup {units : Nat} {roles : Roles} {inputFunctions : Option (List InputFunction)}
    {outputFunctions : Option (List OutputFunction)} {label : Option String} {id : GroupId}
    {grown : Topology}
    (hadd : t.addGroup units roles inputFunctions outputFunctions label = .ok (id, grown)) : grown.Linked := by
  obtain ⟨_, g, alone, _, _, hfresh, halone, hgrown⟩ := addGroup_eq_ok hadd
  have hbase : alone.Linked := halone ▸ h.append hfresh.linksFrom_eq _
  have hlength : alone.groups.length = t.groups.length + 1 := by
    rw [halone]
    exact List.length_append
  obtain rfl | ⟨label, rfl⟩ := hgrown
  · exact hbase
  · refine hbase.withLink ?_ ?_ ?_ label
    · rw [hlength]
      exact Nat.succ_pos _
    · rw [hlength]
      exact Nat.lt_succ_self _
    · intro other hother
      rw [halone, List.getElem?_concat_length] at hother
      cases hother
      rw [hfresh.linksFrom_eq]
      exact List.not_mem_nil

theorem setGroups {groups : List Group} (hgroups : List.Forall₂ Group.SameShape t.groups groups) :
    ({ t with groups } : Topology).Linked where
  link_lt := by
    intro l hl
    rw [← hgroups.length_eq]
    exact h.link_lt l hl
  nodup_linksFrom := by
    intro i later hlater
    obtain ⟨g, hg, hshape⟩ := exists_of_forall₂_getElem? hgroups hlater
    rw [hshape.linksFrom_eq]
    exact h.nodup_linksFrom hg
  mem_linksFrom_iff := by
    intro i later hlater source
    obtain ⟨g, hg, hshape⟩ := exists_of_forall₂_getElem? hgroups hlater
    rw [hshape.linksFrom_eq]
    exact h.mem_linksFrom_iff hg source

end Linked

theorem linked_of_make {cap : Nat} (h : Topology.make cap = .ok t) : t.Linked := by
  obtain ⟨_, hadd⟩ := make_eq_ok h
  have hnone : (⟨[], [], [], cap⟩ : Topology).Linked := ⟨by simp, by simp, by simp⟩
  exact hnone.addGroup hadd

theorem Sound.setGroups (h : t.Sound) {groups : List Group}
    (hgroups : List.Forall₂ Group.SameShape t.groups groups) : ({ t with groups } : Topology).Sound where
  cap_pos := h.cap_pos
  groups_pos := by
    rw [← hgroups.length_eq]
    exact h.groups_pos
  placed := by
    intro i later hlater
    obtain ⟨g, hg, hshape⟩ := exists_of_forall₂_getElem? hgroups hlater
    obtain ⟨hid, hunits, hsubunits⟩ := h.placed hg
    exact ⟨hshape.id_eq.trans hid, hshape.units_eq ▸ hunits, by rw [hshape.subunits_eq, hshape.units_eq, hsubunits]⟩
  chain_nodup := h.chain_nodup
  chain_lt := by
    intro id hid
    rw [← hgroups.length_eq]
    exact h.chain_lt id hid

namespace Obtained

theorem sound (h : t.Obtained) : t.Sound := by
  induction h with
  | make hmake => exact sound_of_make hmake
  | addGroup _ hadd ih => exact ih.addGroup hadd
  | addLink _ hlink ih => exact ih.addLink hlink
  | setGroups _ hgroups ih => exact ih.setGroups hgroups

theorem linked (h : t.Obtained) : t.Linked := by
  induction h with
  | make hmake => exact linked_of_make hmake
  | addGroup _ hadd ih => exact ih.addGroup hadd
  | addLink _ hlink ih => exact ih.addLink hlink
  | setGroups _ hgroups ih => exact ih.setGroups hgroups

end Obtained

end Topology

end PerceptronMesh

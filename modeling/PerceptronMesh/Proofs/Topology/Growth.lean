import Mathlib.Data.List.Nodup
import Mathlib.Tactic.SplitIfs
import PerceptronMesh.Topology.Basic

/-!
Topologies that calls can build, and what holds of all of them. The main statement is
`Topology.Reachable.sound`: groups stand at the position that is their identifier, have
units, and are split by the topology's bound; the output chain names each of its groups
once.
-/

namespace PerceptronMesh

/-- A group at its position in a topology that splits groups by `cap`. -/
structure Group.SoundAt (g : Group) (position cap : Nat) : Prop where
  id_eq : g.id = position
  units_pos : 0 < g.units
  subunits_eq : g.subunits = splitUnits g.units cap

/-- A group that was just made: without links and values, and writing if it is an output group. -/
structure Group.Fresh (g : Group) : Prop where
  linksFrom_eq : g.linksFrom = []
  weights_eq : g.weights = []
  inputs_eq : g.inputs = #[]
  targets_eq : g.targets = #[]
  writeOut_eq : g.writeOut = g.roles.output

/-- What is found in a list with one more item at the end. -/
theorem eq_some_or_of_getElem?_concat {α : Type} {items : List α} {item found : α} {i : Nat}
    (h : (items ++ [item])[i]? = some found) : items[i]? = some found ∨ i = items.length ∧ found = item := by
  rcases Nat.lt_or_ge i items.length with hlt | hge
  · rw [List.getElem?_append_left hlt] at h
    exact .inl h
  · rw [List.getElem?_append_right hge, List.getElem?_singleton] at h
    split at h
    · exact .inr ⟨by omega, (Option.some.inj h).symm⟩
    · cases h

namespace Topology

/-- The topologies that start as the bias group alone and grow by accepted calls. A call
that is refused has no topology to go on with. -/
inductive Reachable : Topology → Prop
  | make {cap : Nat} {t : Topology} : make cap = .ok t → Reachable t
  | addGroup {t grown : Topology} {units : Nat} {roles : Roles}
      {inputFunctions : Option (List InputFunction)} {outputFunctions : Option (List OutputFunction)}
      {label : Option String} {id : GroupId} :
      Reachable t → t.addGroup units roles inputFunctions outputFunctions label = .ok (id, grown) →
      Reachable grown
  | addLink {t linked : Topology} {source destination : GroupId} {label : Option String} {id : Nat} :
      Reachable t → t.addLink source destination label = .ok (id, linked) → Reachable linked

/-- The invariant of growth. -/
structure Sound (t : Topology) : Prop where
  cap_pos : 0 < t.maxSubgroupUnits
  groups_pos : 0 < t.groups.length
  placed : ∀ {i : Nat} {g : Group}, t.groups[i]? = some g → g.SoundAt i t.maxSubgroupUnits
  chain_nodup : t.outputChain.Nodup
  chain_lt : ∀ id ∈ t.outputChain, id < t.groups.length

end Topology

theorem Group.make_eq_ok {id units writeBlock cap : Nat} {roles : Roles}
    {inputFunctions : Option (List InputFunction)} {outputFunctions : Option (List OutputFunction)}
    {isFirstOutput : Bool} {label : String} {g : Group}
    (h : Group.make id units roles inputFunctions outputFunctions writeBlock isFirstOutput label cap =
      .ok g) :
    0 < cap ∧ g.SoundAt id cap ∧ g.Fresh ∧ g.roles = roles := by
  unfold Group.make at h
  dsimp only at h
  by_cases hunits : units = 0
  · simp [hunits] at h
  by_cases hroles : roles.isEmpty
  · simp [hunits, hroles] at h
  by_cases hcap : cap = 0
  · simp [hunits, hroles, hcap] at h
  rw [if_neg hunits, if_neg hroles, if_neg hcap] at h
  split at h
  · cases h
  split at h
  · cases h
  cases h
  exact ⟨Nat.pos_of_ne_zero hcap, ⟨rfl, Nat.pos_of_ne_zero hunits, rfl⟩, ⟨rfl, rfl, rfl, rfl, rfl⟩, rfl⟩

namespace Topology

variable {t : Topology}

theorem addLink_eq_ok {source destination : GroupId} {label : Option String} {id : Nat}
    {linked : Topology} (h : t.addLink source destination label = .ok (id, linked)) :
    source < t.groups.length ∧ destination < t.groups.length ∧
      ∃ label, linked = t.withLink source destination label := by
  unfold addLink at h
  split at h
  · cases h
  · cases h
  · rename_i from_ target hsource htarget
    split_ifs at h with hdeclared
    cases h
    exact ⟨(List.getElem?_eq_some_iff.1 hsource).1, (List.getElem?_eq_some_iff.1 htarget).1, _, rfl⟩

/-- A new group stands at the end, before or after it is linked from the bias. -/
theorem addGroup_eq_ok {units : Nat} {roles : Roles}
    {inputFunctions : Option (List InputFunction)} {outputFunctions : Option (List OutputFunction)}
    {label : Option String} {id : GroupId} {grown : Topology}
    (h : t.addGroup units roles inputFunctions outputFunctions label = .ok (id, grown)) :
    id = t.groups.length ∧ ∃ (g : Group) (alone : Topology), 0 < t.maxSubgroupUnits ∧
      g.SoundAt t.groups.length t.maxSubgroupUnits ∧ g.Fresh ∧
      alone = { t with
        groups := t.groups ++ [g]
        outputChain := if g.roles.output then t.outputChain ++ [t.groups.length] else t.outputChain } ∧
      (grown = alone ∨ ∃ label, grown = alone.withLink bias t.groups.length label) := by
  unfold addGroup at h
  dsimp only at h
  by_cases hlabel : (t.groupByLabel? (label.getD s!"g{t.groups.length}")).isSome
  · rw [if_pos hlabel] at h
    cases h
  rw [if_neg hlabel] at h
  obtain ⟨g, hmake, h⟩ := bind_eq_ok_iff.1 h
  obtain ⟨hcap, hsound, hfresh, rfl⟩ := Group.make_eq_ok hmake
  by_cases hlinked : g.roles.output || g.roles.hidden
  · rw [if_pos hlinked] at h
    obtain ⟨⟨_, linked⟩, hlink, h⟩ := bind_eq_ok_iff.1 h
    cases h
    exact ⟨rfl, g, _, hcap, hsound, hfresh, rfl, .inr (addLink_eq_ok hlink).2.2⟩
  · rw [if_neg hlinked] at h
    cases h
    exact ⟨rfl, g, _, hcap, hsound, hfresh, rfl, .inl rfl⟩

theorem getElem?_withLink {source destination : GroupId} {label : String} {i : Nat} {g : Group}
    (h : (t.withLink source destination label).groups[i]? = some g) :
    ∃ before, t.groups[i]? = some before ∧ (g = before ∨
      i = destination ∧ g = { before with linksFrom := before.linksFrom ++ [source] }) := by
  simp only [withLink, modifyGroup, List.getElem?_modify, Option.map_eq_map,
    Option.map_eq_some_iff] at h
  obtain ⟨before, hbefore, rfl⟩ := h
  refine ⟨before, hbefore, ?_⟩
  split
  · rename_i hi
    exact .inr ⟨hi.symm, rfl⟩
  · exact .inl rfl

@[simp] theorem length_groups_withLink (source destination : GroupId) (label : String) :
    (t.withLink source destination label).groups.length = t.groups.length := by
  simp [withLink, modifyGroup]

theorem Sound.withLink (h : t.Sound) (source destination : GroupId) (label : String) :
    (t.withLink source destination label).Sound where
  cap_pos := h.cap_pos
  groups_pos := by simpa using h.groups_pos
  placed := by
    intro i g hg
    obtain ⟨before, hbefore, rfl | ⟨_, rfl⟩⟩ := getElem?_withLink hg
    · exact h.placed hbefore
    · exact ⟨(h.placed hbefore).id_eq, (h.placed hbefore).units_pos, (h.placed hbefore).subunits_eq⟩
  chain_nodup := h.chain_nodup
  chain_lt := by
    intro id hid
    simpa using h.chain_lt id hid

/-- A group added to a topology that is sound but for having no group yet. -/
theorem sound_of_addGroup
    (hplaced : ∀ {i : Nat} {g : Group}, t.groups[i]? = some g → g.SoundAt i t.maxSubgroupUnits)
    (hnodup : t.outputChain.Nodup) (hlt : ∀ id ∈ t.outputChain, id < t.groups.length)
    {units : Nat} {roles : Roles} {inputFunctions : Option (List InputFunction)}
    {outputFunctions : Option (List OutputFunction)} {label : Option String} {id : GroupId}
    {grown : Topology}
    (h : t.addGroup units roles inputFunctions outputFunctions label = .ok (id, grown)) :
    grown.Sound := by
  obtain ⟨_, g, alone, hcap, hsound, _, halone, hgrown⟩ := addGroup_eq_ok h
  have hnew : t.groups.length ∉ t.outputChain := fun hmem => Nat.lt_irrefl _ (hlt _ hmem)
  have hbase : alone.Sound := by
    subst halone
    refine ⟨hcap, by simp, ?_, ?_, ?_⟩
    · intro i other hother
      obtain hold | ⟨rfl, rfl⟩ := eq_some_or_of_getElem?_concat hother
      · exact hplaced hold
      · exact hsound
    · dsimp only
      split
      · exact List.nodup_append.2 ⟨hnodup, List.nodup_singleton _, by
          intro a ha b hb hab
          simp only [List.mem_singleton] at hb
          exact hnew (hb ▸ hab ▸ ha)⟩
      · exact hnodup
    · intro member hmember
      simp only [List.length_append, List.length_singleton]
      split at hmember
      · rcases List.mem_append.1 hmember with hold | hnew
        · exact Nat.lt_succ_of_lt (hlt member hold)
        · exact List.mem_singleton.1 hnew ▸ Nat.lt_succ_self _
      · exact Nat.lt_succ_of_lt (hlt member hmember)
  obtain rfl | ⟨label, rfl⟩ := hgrown
  · exact hbase
  · exact hbase.withLink _ _ _

/-- A topology starts with the bias group, added where there is none. -/
theorem make_eq_ok {cap : Nat} (h : Topology.make cap = .ok t) : ∃ id,
    (⟨[], [], [], cap⟩ : Topology).addGroup 1 (Roles.ofList [.bias]) none none (some biasLabel) = .ok (id, t) := by
  obtain ⟨⟨id, grown⟩, hadd, hpure⟩ := bind_eq_ok_iff.1 h
  cases hpure
  exact ⟨id, hadd⟩

theorem sound_of_make {cap : Nat} (h : Topology.make cap = .ok t) : t.Sound := by
  obtain ⟨_, hadd⟩ := make_eq_ok h
  exact sound_of_addGroup (by simp) List.nodup_nil (by simp) hadd

theorem Sound.addGroup (h : t.Sound) {units : Nat} {roles : Roles}
    {inputFunctions : Option (List InputFunction)} {outputFunctions : Option (List OutputFunction)}
    {label : Option String} {id : GroupId} {grown : Topology}
    (hadd : t.addGroup units roles inputFunctions outputFunctions label = .ok (id, grown)) : grown.Sound :=
  sound_of_addGroup h.placed h.chain_nodup h.chain_lt hadd

theorem Sound.addLink (h : t.Sound) {source destination : GroupId} {label : Option String} {id : Nat}
    {linked : Topology} (hlink : t.addLink source destination label = .ok (id, linked)) : linked.Sound := by
  obtain ⟨_, _, _, rfl⟩ := addLink_eq_ok hlink
  exact h.withLink _ _ _

namespace Sound

variable {t : Topology} (ht : t.Sound)
include ht

theorem group?_id {g : Group} (hg : g ∈ t.groups) : t.group? g.id = some g := by
  obtain ⟨i, hi⟩ := List.mem_iff_getElem?.1 hg
  rw [(ht.placed hi).id_eq]
  exact hi

theorem map_id_eq_range : t.groups.map (·.id) = List.range t.groups.length := by
  apply List.ext_getElem (by simp)
  intro i hi _
  rw [List.length_map] at hi
  rw [List.getElem_map, List.getElem_range, (ht.placed (List.getElem?_eq_getElem hi)).id_eq]

theorem nodup_id : (t.groups.map (·.id)).Nodup := by
  rw [ht.map_id_eq_range]
  exact List.nodup_range

end Sound

/-- Whatever calls built it, a topology is sound. -/
theorem Reachable.sound (h : t.Reachable) : t.Sound := by
  induction h with
  | make hmake => exact sound_of_make hmake
  | addGroup _ hadd ih => exact ih.addGroup hadd
  | addLink _ hlink ih => exact ih.addLink hlink

end Topology

end PerceptronMesh

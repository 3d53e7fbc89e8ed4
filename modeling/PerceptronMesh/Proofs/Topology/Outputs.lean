import PerceptronMesh.Proofs.Topology.Frame

/-!
Output groups. Every one of them writes its outputs, and no other group does; the output chain
names them in the order of the groups, and their subgroups are found in that order in the
numbering of all subgroups.
-/

namespace PerceptronMesh

def Group.withoutLinks (g : Group) : Group := { g with linksFrom := [] }

namespace Topology

/-- Exactly the output groups write. -/
def WritesOutputs (t : Topology) : Prop := ∀ g ∈ t.groups, g.writeOut = g.roles.output

variable {t other : Topology}

/-- The subgroups of all output groups, each known by its group and its number in it. -/
def outputSubgroups (t : Topology) : List (Group × Nat) :=
  t.outputGroups.flatMap fun g => (List.range g.subgroups).map fun subgroup => (g, subgroup)

theorem WritesOutputs.of_frame (h : t.WritesOutputs) (hframe : t.frame = other.frame) : other.WritesOutputs := by
  intro g hg
  obtain ⟨i, hi⟩ := List.mem_iff_getElem?.1 hg
  obtain ⟨before, hbefore, hsame⟩ := exists_group_of_frame hframe hi
  have hwrites : before.writeOut = g.writeOut := (congrArg Group.writeOut hsame :)
  have hroles : before.roles = g.roles := (congrArg Group.roles hsame :)
  rw [← hwrites, ← hroles]
  exact h before (List.mem_of_getElem? hbefore)

theorem WritesOutputs.withLink (h : t.WritesOutputs) (source destination : GroupId) (label : String) :
    (t.withLink source destination label).WritesOutputs := by
  intro g hg
  obtain ⟨i, hi⟩ := List.mem_iff_getElem?.1 hg
  obtain ⟨before, hbefore, rfl | ⟨_, rfl⟩⟩ := getElem?_withLink hi
  · exact h g (List.mem_of_getElem? hbefore)
  · exact h before (List.mem_of_getElem? hbefore)

theorem WritesOutputs.addGroup (h : t.WritesOutputs) {units : Nat} {roles : Roles}
    {inputFunctions : Option (List InputFunction)} {outputFunctions : Option (List OutputFunction)}
    {label : Option String} {id : GroupId} {grown : Topology}
    (hadd : t.addGroup units roles inputFunctions outputFunctions label = .ok (id, grown)) :
    grown.WritesOutputs := by
  obtain ⟨_, g, alone, _, _, hfresh, halone, hgrown⟩ := addGroup_eq_ok hadd
  have hbase : alone.WritesOutputs := by
    subst halone
    intro held hheld
    rcases List.mem_append.1 hheld with hold | hnew
    · exact h held hold
    · rw [List.mem_singleton.1 hnew]
      exact hfresh.writeOut_eq
  obtain rfl | ⟨label, rfl⟩ := hgrown
  · exact hbase
  · exact hbase.withLink _ _ _

theorem WritesOutputs.addLink (h : t.WritesOutputs) {source destination : GroupId} {label : Option String}
    {id : Nat} {linked : Topology} (hlink : t.addLink source destination label = .ok (id, linked)) :
    linked.WritesOutputs := by
  obtain ⟨_, _, _, rfl⟩ := addLink_eq_ok hlink
  exact h.withLink _ _ _

theorem writesOutputs_of_make {cap : Nat} (h : Topology.make cap = .ok t) : t.WritesOutputs := by
  obtain ⟨_, hadd⟩ := make_eq_ok h
  have hnone : (⟨[], [], [], cap⟩ : Topology).WritesOutputs := by simp [WritesOutputs]
  exact hnone.addGroup hadd

theorem outputGroups_mapGroups (change : Group → Group) (h : ∀ g, (change g).roles = g.roles)
    (t : Topology) : (t.mapGroups change).outputGroups = t.outputGroups.map change := by
  simp only [outputGroups, mapGroups, List.filter_map, Function.comp_def, h]

theorem outputGroups_frame (t : Topology) : t.frame.outputGroups = t.outputGroups.map Group.frame :=
  outputGroups_mapGroups Group.frame (fun _ => rfl) t

theorem map_frame_outputGroups (h : t.frame = other.frame) :
    t.outputGroups.map Group.frame = other.outputGroups.map Group.frame := by
  rw [← outputGroups_frame, h, outputGroups_frame]

/-- Whether there are output groups is a matter of the frame. -/
theorem outputGroups_eq_nil_of_frame (h : t.frame = other.frame) :
    t.outputGroups = [] ↔ other.outputGroups = [] := by
  rw [← List.map_eq_nil_iff (f := Group.frame), map_frame_outputGroups h, List.map_eq_nil_iff]

theorem exists_outputGroup_of_frame (h : t.frame = other.frame) {g : Group} (hg : g ∈ other.outputGroups) :
    ∃ before ∈ t.outputGroups, before.frame = g.frame := by
  have hframe := List.mem_map_of_mem (f := Group.frame) hg
  rwa [← map_frame_outputGroups h, List.mem_map] at hframe

/-- The output chain names the output groups. -/
def ChainsOutputs (t : Topology) : Prop := t.outputChain = t.outputGroups.map (·.id)

theorem ChainsOutputs.of_frame (h : t.ChainsOutputs) (hframe : t.frame = other.frame) : other.ChainsOutputs := by
  have hids (t : Topology) : t.outputGroups.map (·.id) = (t.outputGroups.map Group.frame).map (·.id) := by
    rw [List.map_map]
    rfl
  rw [ChainsOutputs, ← (fields_of_frame hframe).2, hids other, ← map_frame_outputGroups hframe, ← hids]
  exact h

section WithLink

variable {β : Type} {f : Group → β} (hf : ∀ g : Group, f g.withoutLinks = f g)
  (source destination : GroupId) (label : String)
include hf

/-- A new link changes no group but for the sources it lists. -/
theorem map_groups_withLink : (t.withLink source destination label).groups.map f = t.groups.map f := by
  have hlists (g : Group) :
      { g with linksFrom := g.linksFrom ++ [source] : Group }.withoutLinks = g.withoutLinks := rfl
  have hlinked := mapGroups_modifyGroup hlists t destination
  have hblank (groups : List Group) : groups.map f = (groups.map Group.withoutLinks).map f := by
    rw [List.map_map]
    exact List.map_congr_left fun g _ => (hf g).symm
  rw [hblank, hblank t.groups]
  exact congrArg (fun linked : Topology => linked.groups.map f) hlinked

theorem map_outputGroups_withLink :
    (t.withLink source destination label).outputGroups.map f = t.outputGroups.map f := by
  have houtputs (t : Topology) : t.outputGroups.map f =
      (t.groups.map fun g => if g.roles.output then some (f g) else none).filterMap id := by
    rw [outputGroups, List.filterMap_map]
    induction t.groups with
    | nil => rfl
    | cons g rest ih => by_cases houtput : g.roles.output <;> simp_all
  rw [houtputs, houtputs, map_groups_withLink fun g => by rw [hf g]; rfl]

end WithLink

theorem ChainsOutputs.withLink (h : t.ChainsOutputs) (source destination : GroupId) (label : String) :
    (t.withLink source destination label).ChainsOutputs := by
  rw [ChainsOutputs, map_outputGroups_withLink fun _ => rfl]
  exact h

theorem ChainsOutputs.addGroup (h : t.ChainsOutputs) {units : Nat} {roles : Roles}
    {inputFunctions : Option (List InputFunction)} {outputFunctions : Option (List OutputFunction)}
    {label : Option String} {id : GroupId} {grown : Topology}
    (hadd : t.addGroup units roles inputFunctions outputFunctions label = .ok (id, grown)) :
    grown.ChainsOutputs := by
  obtain ⟨_, g, alone, _, hsound, _, halone, hgrown⟩ := addGroup_eq_ok hadd
  have hbase : alone.ChainsOutputs := by
    subst halone
    unfold ChainsOutputs outputGroups at h ⊢
    rw [List.filter_append, List.map_append, ← h]
    by_cases houtput : g.roles.output
    · simp [houtput, hsound.id_eq]
    · simp [houtput]
  obtain rfl | ⟨label, rfl⟩ := hgrown
  · exact hbase
  · exact hbase.withLink _ _ _

theorem ChainsOutputs.addLink (h : t.ChainsOutputs) {source destination : GroupId} {label : Option String}
    {id : Nat} {linked : Topology} (hlink : t.addLink source destination label = .ok (id, linked)) :
    linked.ChainsOutputs := by
  obtain ⟨_, _, _, rfl⟩ := addLink_eq_ok hlink
  exact h.withLink _ _ _

/-- However a topology was built, its output chain follows the order of its groups. -/
theorem Reachable.chainsOutputs (h : t.Reachable) : t.ChainsOutputs := by
  induction h with
  | @make cap t hmake =>
    obtain ⟨_, hadd⟩ := make_eq_ok hmake
    have hnone : (⟨[], [], [], cap⟩ : Topology).ChainsOutputs := rfl
    exact hnone.addGroup hadd
  | addGroup _ hadd ih => exact ih.addGroup hadd
  | addLink _ hlink ih => exact ih.addLink hlink

/-- The groups on the output chain, in its order. -/
def chained (t : Topology) : List Group := t.outputChain.filterMap t.group?

theorem mem_groups_of_mem_chained {g : Group} (hg : g ∈ t.chained) : g ∈ t.groups := by
  obtain ⟨_, _, hfound⟩ := List.mem_filterMap.1 hg
  exact List.mem_of_getElem? hfound

theorem Sound.chained_eq (ht : t.Sound) (h : t.ChainsOutputs) : t.chained = t.outputGroups := by
  have hfound : ∀ g ∈ t.outputGroups, (t.group? ∘ (·.id)) g = some g := fun g hg =>
    ht.group?_id (List.mem_of_mem_filter hg)
  rw [chained, h, List.filterMap_map, List.filterMap_congr hfound, List.filterMap_some]

theorem Sound.outputSubgroups_ne_nil (ht : t.Sound) (h : t.outputGroups ≠ []) : t.outputSubgroups ≠ [] := by
  obtain ⟨g, hg⟩ := List.exists_mem_of_ne_nil _ h
  obtain ⟨i, hi⟩ := List.mem_iff_getElem?.1 (List.mem_of_mem_filter hg)
  have hpos : 0 < g.subgroups := by
    rw [Group.subgroups, (ht.placed hi).subunits_eq]
    exact length_splitUnits_pos _ _
  have hfirst : (g, 0) ∈ t.outputSubgroups :=
    List.mem_flatMap.2 ⟨g, hg, List.mem_map.2 ⟨0, List.mem_range.2 hpos, rfl⟩⟩
  exact List.ne_nil_of_mem hfirst

end Topology

theorem map_subgroup_subgroupsFrom (group : GroupId) (subunits : List Nat) (start : Nat) :
    (subgroupsFrom group subunits start).map (·.subgroup) = List.range subunits.length := by
  apply List.ext_getElem
  · simp
  · intro i _ _
    simp [subgroupsFrom]

/-- What is picked of the subgroups of some groups and of no others, in the order of the groups. -/
theorem filterMap_enumerateSubgroups {β : Type} {pick : Subgroup → Option β} {taken : Group → Bool}
    {value : Group → Nat → β} {groups : List Group} (start : Nat)
    (h : ∀ g ∈ groups, ∀ x : Subgroup, x.group = g.id → g.subunits[x.subgroup]? = some x.units →
      pick x = if taken g then some (value g x.subgroup) else none) :
    (enumerateSubgroups groups start).filterMap pick =
      (groups.filter taken).flatMap fun g => (List.range g.subgroups).map (value g) := by
  induction groups generalizing start with
  | nil => rfl
  | cons g rest ih =>
    have hown : (subgroupsFrom g.id g.subunits start).filterMap pick =
        if taken g then (List.range g.subgroups).map (value g) else [] := by
      have hpick : ∀ x ∈ subgroupsFrom g.id g.subunits start,
          pick x = if taken g then some (value g x.subgroup) else none := by
        intro x hx
        obtain ⟨hgroup, hunits, _⟩ := mem_subgroupsFrom.1 hx
        exact h g List.mem_cons_self x hgroup hunits
      rw [List.filterMap_congr hpick]
      by_cases htaken : taken g
      · simp only [htaken, if_true, List.filterMap_eq_map']
        rw [Group.subgroups, ← map_subgroup_subgroupsFrom g.id g.subunits start, List.map_map]
        rfl
      · simp [htaken]
    rw [enumerateSubgroups, List.filterMap_append, hown,
      ih _ fun other hother => h other (List.mem_cons_of_mem _ hother)]
    by_cases htaken : taken g
    · rw [if_pos htaken, List.filter_cons, if_pos htaken, List.flatMap_cons]
    · rw [if_neg htaken, List.filter_cons, if_neg htaken, List.nil_append]

/-- A group and the number of a subgroup, if the group is an output group. -/
def Topology.recorder? (t : Topology) (group : GroupId) (subgroup : Nat) : Option (Group × Nat) :=
  (t.group? group).bind fun g => if g.roles.output then some (g, subgroup) else none

theorem Topology.Sound.filterMap_recorder? {t : Topology} (ht : t.Sound) :
    (enumerateSubgroups t.groups 0).filterMap (fun x => t.recorder? x.group x.subgroup) =
      t.outputSubgroups := by
  apply filterMap_enumerateSubgroups
  intro g hg x hx _
  rw [recorder?, hx, ht.group?_id hg]
  rfl

end PerceptronMesh

import PerceptronMesh.Proofs.Example.Compilation

/-!
Which groups hold values. Whatever calls built a topology, a group has input values only if it is
an input group and target values only if it is an output group. Where a set was bound last, these
are one row for each event of the set.
-/

namespace PerceptronMesh

/-- Whether a group takes values on a side. -/
def Group.isOn (g : Group) : Side → Bool
  | .input => g.roles.input
  | .target => g.roles.output

/-- A group with the values of another, for groups of the same kind. -/
structure Group.SameValues (g later : Group) : Prop where
  units_eq : later.units = g.units
  isOn_eq : ∀ side, later.isOn side = g.isOn side
  valuesOn_eq : ∀ side, later.valuesOn side = g.valuesOn side

namespace Topology

/-- Topologies that calls lead to, with the compiled set whose values the groups hold. A group that
is added has no rows, so that the set has to be bound again. Links leave the values as they are, and
so does whatever is set of the groups between the calls, weights of the right shapes among it. -/
inductive Given : Topology → Option ExampleSet → Prop
  | make {cap : Nat} {t : Topology} : make cap = .ok t → Given t none
  | addGroup {t grown : Topology} {held : Option ExampleSet} {units : Nat} {roles : Roles}
      {inputFunctions : Option (List InputFunction)} {outputFunctions : Option (List OutputFunction)}
      {label : Option String} {id : GroupId} :
      Given t held → t.addGroup units roles inputFunctions outputFunctions label = .ok (id, grown) →
      Given grown none
  | addLink {t linked : Topology} {held : Option ExampleSet} {source destination : GroupId}
      {label : Option String} {id : Nat} :
      Given t held → t.addLink source destination label = .ok (id, linked) → Given linked held
  | setGroups {t : Topology} {held : Option ExampleSet} {groups : List Group} :
      Given t held → List.Forall₂ Group.SameShape t.groups groups → List.Forall₂ Group.SameValues t.groups groups →
      Filled { t with groups } → Given { t with groups } held
  | bind {t bound : Topology} {held : Option ExampleSet} {s compiled : ExampleSet} :
      Given t held → s.compiled = none → s.compile t = .ok (compiled, bound) → Given bound (some compiled)

/-- Values stand in the groups of their side alone, in a number of rows if that is known. -/
structure Valued (t : Topology) (rows : Option Nat) : Prop where
  off : ∀ g ∈ t.groups, ∀ side, g.isOn side = false → g.valuesOn side = #[]
  on : ∀ count ∈ rows, ∀ g ∈ t.groups, ∀ side, g.isOn side = true → (g.valuesOn side).size = count * g.units

variable {t other : Topology} {rows : Option Nat} {side : Side} {g : Group}

theorem mem_groupsOn_iff : g ∈ t.groupsOn side ↔ g ∈ t.groups ∧ g.isOn side = true := by
  cases side <;> exact List.mem_filter

namespace Valued

theorem of_same (h : t.Valued rows) (hsame : ∀ later ∈ other.groups, ∃ g ∈ t.groups, g.SameValues later) :
    other.Valued rows := by
  constructor
  · intro later hlater side hside
    obtain ⟨g, hg, _, hon, hvalues⟩ := hsame later hlater
    rw [hvalues]
    exact h.off g hg side (hon side ▸ hside)
  · intro count hcount later hlater side hside
    obtain ⟨g, hg, hunits, hon, hvalues⟩ := hsame later hlater
    rw [hvalues, hunits]
    exact h.on count hcount g hg side (hon side ▸ hside)

theorem withLink (h : t.Valued rows) (source destination : GroupId) (label : String) :
    (t.withLink source destination label).Valued rows := by
  refine h.of_same fun g hg => ?_
  obtain ⟨i, hi⟩ := List.mem_iff_getElem?.1 hg
  obtain ⟨before, hbefore, rfl | ⟨_, rfl⟩⟩ := getElem?_withLink hi
  · exact ⟨g, List.mem_of_getElem? hbefore, rfl, fun _ => rfl, fun _ => rfl⟩
  · exact ⟨before, List.mem_of_getElem? hbefore, rfl, fun _ => rfl, fun _ => rfl⟩

/-- A new group holds no values, and the rows of the others no longer count for all. -/
theorem addGroup (h : t.Valued rows) {units : Nat} {roles : Roles}
    {inputFunctions : Option (List InputFunction)} {outputFunctions : Option (List OutputFunction)}
    {label : Option String} {id : GroupId} {grown : Topology}
    (hadd : t.addGroup units roles inputFunctions outputFunctions label = .ok (id, grown)) :
    grown.Valued none := by
  obtain ⟨_, g, alone, _, _, hfresh, halone, hgrown⟩ := addGroup_eq_ok hadd
  have hvalued : alone.Valued none := by
    refine ⟨?_, fun count hcount => nomatch hcount⟩
    subst halone
    intro other hother side hside
    rcases List.mem_append.1 hother with hold | hnew
    · exact h.off other hold side hside
    · rw [List.mem_singleton.1 hnew]
      cases side with
      | input => exact hfresh.inputs_eq
      | target => exact hfresh.targets_eq
  obtain rfl | ⟨label, rfl⟩ := hgrown
  · exact hvalued
  · exact hvalued.withLink _ _ _

theorem setGroups (h : t.Valued rows) {groups : List Group}
    (hgroups : List.Forall₂ Group.SameValues t.groups groups) : ({ t with groups } : Topology).Valued rows := by
  refine h.of_same fun later hlater => ?_
  obtain ⟨i, hi⟩ := List.mem_iff_getElem?.1 hlater
  obtain ⟨g, hg, hsame⟩ := exists_of_forall₂_getElem? hgroups hi
  exact ⟨g, List.mem_of_getElem? hg, hsame⟩

/-- Binding gives every group on a side a row for each event. -/
theorem receives (h : t.Valued rows) {s : ExampleSet} {bound : Topology} (hbound : t.Receives bound s) :
    bound.Valued (some s.events.length) := by
  have hbefore {after : Group} (hafter : after ∈ bound.groups) : ∃ g ∈ t.groups, after.units = g.units ∧
      (∀ side, after.isOn side = g.isOn side) ∧ ∀ side,
        (g ∈ t.groupsOn side → (after.valuesOn side).size = s.events.length * g.units) ∧
        (g ∉ t.groupsOn side → after.valuesOn side = g.valuesOn side) := by
    obtain ⟨i, hi⟩ := List.mem_iff_getElem?.1 hafter
    have hlt : i < t.groups.length := hbound.length_groups ▸ (List.getElem?_eq_some_iff.1 hi).1
    obtain ⟨found, hfound, hsame, hsides⟩ := hbound.group (List.getElem?_eq_getElem hlt)
    cases hi.symm.trans hfound
    exact ⟨t.groups[i], List.getElem_mem hlt, (congrArg Group.units hsame :),
      fun side => (congrArg (Group.isOn · side) hsame :),
      fun side => ⟨fun hmem => ((hsides side).1 hmem).size_eq, (hsides side).2⟩⟩
  constructor
  · intro after hafter side hside
    obtain ⟨g, hg, _, hon, hvalues⟩ := hbefore hafter
    rw [hon] at hside
    rw [(hvalues side).2 (by simp [mem_groupsOn_iff, hside]), h.off g hg side hside]
  · intro count hcount after hafter side hside
    cases hcount
    obtain ⟨g, hg, hunits, hon, hvalues⟩ := hbefore hafter
    rw [hunits]
    exact (hvalues side).1 (mem_groupsOn_iff.2 ⟨hg, hon side ▸ hside⟩)

/-- There are values just where a set with events gives some. -/
theorem isEmpty_iff {count : Nat} (h : t.Valued (some count)) (hg : g ∈ t.groups) (hpos : 0 < g.units) (side : Side) :
    (g.valuesOn side).isEmpty = true ↔ ¬(g.isOn side = true ∧ 0 < count) := by
  cases hside : g.isOn side with
  | false => simp [h.off g hg side hside]
  | true =>
    rw [Array.isEmpty_iff_size_eq_zero, h.on count rfl g hg side hside, Nat.mul_eq_zero]
    simp only [true_and]
    omega

end Valued

namespace Given

variable {held : Option ExampleSet}

/-- What all calls keep. -/
theorem invariant (h : t.Given held) : t.Sound ∧ t.Filled ∧ t.Valued (held.map fun s => s.events.length) := by
  induction h with
  | make hmake =>
    obtain ⟨_, hadd⟩ := make_eq_ok hmake
    have hnone (cap : Nat) : (⟨[], [], [], cap⟩ : Topology).Valued none := by constructor <;> simp
    exact ⟨sound_of_make hmake, filled_of_make hmake, (hnone _).addGroup hadd⟩
  | addGroup _ hadd ih =>
    obtain ⟨hsound, hfilled, hvalued⟩ := ih
    exact ⟨hsound.addGroup hadd, hfilled.addGroup hadd, hvalued.addGroup hadd⟩
  | addLink _ hlink ih =>
    obtain ⟨hsound, hfilled, hvalued⟩ := ih
    refine ⟨hsound.addLink hlink, hfilled.addLink hlink, ?_⟩
    obtain ⟨_, _, _, rfl⟩ := addLink_eq_ok hlink
    exact hvalued.withLink _ _ _
  | setGroups _ hshape hvalues hfilled ih =>
    obtain ⟨hsound, _, hvalued⟩ := ih
    exact ⟨hsound.setGroups hshape, hfilled, hvalued.setGroups hvalues⟩
  | @bind t bound held s compiled _ hnone hcompile ih =>
    obtain ⟨hsound, hfilled, hvalued⟩ := ih
    obtain ⟨_, _, _, hcompiled⟩ | ⟨_, rfl, columns, hcolumns, rfl⟩ := ExampleSet.compile_eq_ok hcompile
    · rw [hnone] at hcompiled
      cases hcompiled
    · obtain ⟨hinputs, htargets⟩ := Binding.whole_columns hsound hcolumns
      exact ⟨hsound.of_frame (t.frame_withValues columns).symm, hfilled.withValues hsound hinputs htargets,
        hvalued.receives (hsound.receives hcolumns)⟩

/-- Parameters and weights are set of the groups without their values. -/
theorem of_withoutLearning (h : t.Given held) (hfilled : other.Filled)
    (hsame : other.mapGroups Group.withoutLearning = t.mapGroups Group.withoutLearning) : other.Given held := by
  have hgroups : List.Forall₂ (fun g later => later.withoutLearning = g.withoutLearning) t.groups other.groups := by
    have hmap : other.groups.map Group.withoutLearning = t.groups.map Group.withoutLearning :=
      congrArg Topology.groups hsame
    have heq : List.Forall₂ Eq (t.groups.map Group.withoutLearning) (other.groups.map Group.withoutLearning) := by
      rw [List.forall₂_eq_eq_eq, hmap]
    exact (List.forall₂_map_left_iff.1 (List.forall₂_map_right_iff.1 heq)).imp fun _ _ => Eq.symm
  have hother : other = { t with groups := other.groups } :=
    (congrArg (fun t : Topology => { t with groups := other.groups }) hsame :)
  rw [hother] at hfilled ⊢
  refine h.setGroups (hgroups.imp fun g later heq => ?_) (hgroups.imp fun g later heq => ?_) hfilled
  · exact ⟨(congrArg Group.id heq :), (congrArg Group.units heq :), (congrArg Group.subunits heq :),
      (congrArg Group.linksFrom heq :)⟩
  · exact ⟨(congrArg Group.units heq :), fun side => (congrArg (Group.isOn · side) heq :),
      fun side => (congrArg (Group.valuesOn · side) heq :)⟩

theorem setParams (h : t.Given held) (id : GroupId) (params : GroupParams) :
    (t.modifyGroup id fun g => { g with params }).Given held :=
  h.of_withoutLearning (h.invariant.2.1.setParams id params) (t.withoutLearning_setParams id params)

theorem withWeights (h : t.Given held) (values : Array Numeric.Binary64) : (t.withWeights values).Given held :=
  h.of_withoutLearning (h.invariant.2.1.withWeights h.invariant.1 values) (t.withoutLearning_withWeights values)

end Given

end Topology

end PerceptronMesh

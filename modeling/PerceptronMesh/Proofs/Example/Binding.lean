import PerceptronMesh.Example.Set
import PerceptronMesh.Proofs.Topology.Filled

/-!
What binding examples leaves in a topology. Columns depend on the frame of a topology alone, and a
topology that takes them over holds each in the group that it was made for, with one row for
every event.
-/

namespace PerceptronMesh

/-- An event with one target, which is listed for the only output group. -/
def Event.targeted (target : Numeric.Binary64) : Event := { targets := [⟨none, .dense [some target]⟩] }

namespace Group

/-- The group without what binding neither reads nor writes. -/
def withoutLearning (g : Group) : Group := { g with params := {}, weights := [] }

end Group

/-- All events of all examples. -/
def ExampleSet.events (s : ExampleSet) : List Event := s.examples.flatMap (·.events)

namespace Binding

variable {t other : Topology}

theorem target_frame (side : Side) (groups : List Group) (list : ValueList) :
    target side (groups.map Group.frame) list = (target side groups list).map Group.frame := by
  unfold target
  cases list.group with
  | none =>
    match groups with
    | [] => rfl
    | [_] => rfl
    | _ :: _ :: _ => simp [Except.map]
  | some name =>
    have hlabel : ((·.label == name) ∘ Group.frame) = (·.label == name) := rfl
    simp only [List.find?_map, hlabel]
    cases groups.find? (·.label == name) <;> rfl

theorem bindList_frame (side : Side) (groups : List Group) (default : UnitValue) (rows : Rows)
    (list : ValueList) :
    bindList side (groups.map Group.frame) default rows list = bindList side groups default rows list := by
  unfold bindList
  rw [target_frame]
  cases target side groups list <;> rfl

theorem bindEvent_frame (side : Side) (groups : List Group) (default : UnitValue) (lists : List ValueList) :
    bindEvent side (groups.map Group.frame) default lists = bindEvent side groups default lists := by
  have hlist : bindList side (groups.map Group.frame) default = bindList side groups default := by
    funext rows list
    exact bindList_frame side groups default rows list
  unfold bindEvent
  rw [hlist]
  simp only [List.map_map]
  rfl

theorem inputGroups_frame (t : Topology) : t.frame.inputGroups = t.inputGroups.map Group.frame := by
  simp only [Topology.inputGroups, Topology.frame, Topology.mapGroups, List.filter_map]
  rfl

theorem outputGroups_frame (t : Topology) : t.frame.outputGroups = t.outputGroups.map Group.frame := by
  simp only [Topology.outputGroups, Topology.frame, Topology.mapGroups, List.filter_map]
  rfl

theorem columns_frame (t : Topology) (defaults : SideValues) (events : List Event) :
    columns t.frame defaults events = columns t defaults events := by
  have hevent : addEvent t.frame defaults = addEvent t defaults := by
    funext columns event
    simp only [addEvent, inputGroups_frame, outputGroups_frame, bindEvent_frame]
  unfold columns
  rw [hevent, inputGroups_frame, outputGroups_frame, List.map_map, List.map_map]
  rfl

/-- Columns are a matter of the frame. -/
theorem columns_of_frame (h : t.frame = other.frame) (defaults : SideValues) (events : List Event) :
    columns t defaults events = columns other defaults events := by
  rw [← columns_frame t, h, columns_frame]

/-- Every column is found for the group that it stands for. -/
theorem map_lookup_zip {ids : List GroupId} {columns : List (Array UnitValue)} (hids : ids.Nodup)
    (hlength : ids.length = columns.length) :
    ids.map (fun id => (ids.zip columns).lookup id) = columns.map some := by
  induction ids generalizing columns with
  | nil =>
    cases columns with
    | nil => rfl
    | cons => cases hlength
  | cons id rest ih =>
    cases columns with
    | nil => cases hlength
    | cons column others =>
      obtain ⟨hnew, hrest⟩ := List.nodup_cons.1 hids
      rw [List.map_cons, List.map_cons, List.zip_cons_cons, List.lookup_cons_self,
        ← ih hrest (Nat.succ.inj hlength)]
      congr 1
      apply List.map_congr_left
      intro later hlater
      have hne : (later == id) = false := beq_false_of_ne fun heq => hnew (heq ▸ hlater)
      rw [List.lookup_cons, hne]

/-- Groups that take over their columns hold just those. -/
theorem map_lookup_groups {groups : List Group} {columns : List (Array UnitValue)} {count : Nat}
    (hids : (groups.map (·.id)).Nodup) (hsized : Sized count groups columns) (own : Group → Array UnitValue) :
    groups.map (fun g => (((groups.map (·.id)).zip columns).lookup g.id).getD (own g)) = columns := by
  have hfound := map_lookup_zip hids (by rw [List.length_map, hsized.length_eq])
  apply List.ext_getElem?
  intro i
  have hat := congrArg (·[i]?) hfound
  simp only [List.getElem?_map, Option.map_map] at hat ⊢
  cases hg : groups[i]? with
  | none =>
    have hlength : columns.length ≤ i := hsized.length_eq ▸ List.getElem?_eq_none_iff.1 hg
    rw [List.getElem?_eq_none_iff.2 hlength, Option.map_none]
  | some g =>
    rw [hg] at hat
    obtain ⟨column, hcolumn, hlookup⟩ := Option.map_eq_some_iff.1 hat.symm
    rw [hcolumn, Option.map_some]
    simp only [Function.comp_apply] at hlookup
    rw [← hlookup, Option.getD_some]

end Binding

namespace Topology

variable {t other : Topology} {columns : Binding.Columns}

/-- Input and output groups hold the columns of a binding. -/
structure Holds (t : Topology) (columns : Binding.Columns) : Prop where
  inputs : t.inputGroups.map (·.inputs) = columns.inputs
  targets : t.outputGroups.map (·.targets) = columns.targets

theorem Sound.holds_withValues (ht : t.Sound) {count : Nat}
    (hinputs : Binding.Sized count t.inputGroups columns.inputs)
    (htargets : Binding.Sized count t.outputGroups columns.targets) : (t.withValues columns).Holds columns := by
  refine ⟨?_, ?_⟩
  · rw [inputGroups, withValues, List.filter_map, List.map_map]
    exact Binding.map_lookup_groups (ht.nodup_id.sublist (List.filter_sublist.map _)) hinputs _
  · rw [outputGroups, withValues, List.filter_map, List.map_map]
    exact Binding.map_lookup_groups (ht.nodup_id.sublist (List.filter_sublist.map _)) htargets _

theorem frame_of_withoutLearning
    (h : other.mapGroups Group.withoutLearning = t.mapGroups Group.withoutLearning) :
    other.frame = t.frame := by
  have hframe (t : Topology) : (t.mapGroups Group.withoutLearning).frame = t.frame := by
    simp only [frame, mapGroups, List.map_map]
    rfl
  rw [← hframe other, h, hframe]

theorem withoutLearning_setParams (t : Topology) (id : GroupId) (params : GroupParams) :
    (t.modifyGroup id fun g => { g with params }).mapGroups Group.withoutLearning =
      t.mapGroups Group.withoutLearning := by
  apply mapGroups_modifyGroup
  intro g
  rfl

theorem withoutLearning_withWeights (t : Topology) (values : Array Numeric.Binary64) :
    (t.withWeights values).mapGroups Group.withoutLearning = t.mapGroups Group.withoutLearning := by
  have hweights (t : Topology) :
      (t.mapGroups Group.withoutWeights).mapGroups Group.withoutLearning = t.mapGroups Group.withoutLearning := by
    simp only [mapGroups, List.map_map]
    rfl
  rw [← hweights, withoutWeights_withWeights, hweights]

/-- Parameters and weights are no part of what is held. -/
theorem Holds.of_withoutLearning (h : t.Holds columns)
    (hsame : other.mapGroups Group.withoutLearning = t.mapGroups Group.withoutLearning) :
    other.Holds columns := by
  have hgroups : other.groups.map Group.withoutLearning = t.groups.map Group.withoutLearning :=
    congrArg Topology.groups hsame
  have hinputs (t : Topology) : t.inputGroups.map (·.inputs) =
      ((t.groups.map Group.withoutLearning).filter (·.roles.input)).map (·.inputs) := by
    rw [List.filter_map, List.map_map]
    rfl
  have htargets (t : Topology) : t.outputGroups.map (·.targets) =
      ((t.groups.map Group.withoutLearning).filter (·.roles.output)).map (·.targets) := by
    rw [List.filter_map, List.map_map]
    rfl
  refine ⟨?_, ?_⟩
  · rw [hinputs, hgroups, ← hinputs, h.inputs]
  · rw [htargets, hgroups, ← htargets, h.targets]

end Topology

end PerceptronMesh

import Mathlib.Data.List.Forall2
import PerceptronMesh.Proofs.Topology.Frame

/-!
Shapes of the data that groups hold: values come in whole rows of a group's units, and a
block of weights has one weight for every pair of a unit and a source's unit. Reading
weights, compiling examples and growing a topology keep these shapes.
-/

namespace PerceptronMesh

/-- The weights and values of a group fit it and the groups of its topology. -/
structure Group.FilledIn (g : Group) (t : Topology) : Prop where
  inputs : g.units ∣ g.inputs.size
  targets : g.units ∣ g.targets.size
  weights : ∀ entry ∈ g.weights, ∃ source, t.groups[entry.1]? = some source ∧
    entry.2.size = g.units * source.units

def Topology.Filled (t : Topology) : Prop := ∀ g ∈ t.groups, g.FilledIn t

/-- Groups keep their place and their number of units. -/
def Topology.KeepsUnits (t other : Topology) : Prop :=
  ∀ {i : Nat} {g : Group}, t.groups[i]? = some g →
    ∃ later, other.groups[i]? = some later ∧ later.units = g.units

namespace Group.FilledIn

variable {t other : Topology} {g : Group}

theorem mono (h : g.FilledIn t) (hkeeps : t.KeepsUnits other) : g.FilledIn other where
  inputs := h.inputs
  targets := h.targets
  weights := by
    intro entry hentry
    obtain ⟨source, hsource, hsize⟩ := h.weights entry hentry
    obtain ⟨later, hlater, hunits⟩ := hkeeps hsource
    exact ⟨later, hlater, by rw [hsize, hunits]⟩

theorem weightsFrom (h : g.FilledIn t) {id : GroupId} {held : Array Numeric.Binary64} {source : Group}
    (hheld : g.weightsFrom? id = some held) (hsource : t.groups[id]? = some source) :
    held.size = g.units * source.units := by
  unfold Group.weightsFrom? at hheld
  rw [Option.map_eq_some_iff] at hheld
  obtain ⟨entry, hfind, rfl⟩ := hheld
  obtain ⟨found, hfound, hsize⟩ := h.weights entry (List.mem_of_find?_eq_some hfind)
  have hid : entry.1 = id := by simpa using List.find?_some hfind
  rw [hid, hsource] at hfound
  cases hfound
  exact hsize

end Group.FilledIn

namespace Topology

variable {t other : Topology}

theorem keepsUnits_of_frame (h : t.frame = other.frame) : t.KeepsUnits other := by
  intro i source hsource
  obtain ⟨later, hlater, hframe⟩ := exists_group_of_frame h.symm hsource
  exact ⟨later, hlater, (group_fields_of_frame hframe).2.1⟩

theorem Filled.withLink (h : t.Filled) (source destination : GroupId) (label : String) :
    (t.withLink source destination label).Filled := by
  have hkeeps : t.KeepsUnits (t.withLink source destination label) := by
    intro i from_ hfrom
    simp only [Topology.withLink, modifyGroup, List.getElem?_modify, hfrom]
    refine ⟨_, rfl, ?_⟩
    split <;> rfl
  intro g hg
  obtain ⟨i, hi⟩ := List.mem_iff_getElem?.1 hg
  obtain ⟨before, hbefore, rfl | ⟨_, rfl⟩⟩ := getElem?_withLink hi
  · exact (h _ (List.mem_of_getElem? hbefore)).mono hkeeps
  · obtain ⟨hinputs, htargets, hweights⟩ := (h _ (List.mem_of_getElem? hbefore)).mono hkeeps
    exact ⟨hinputs, htargets, hweights⟩

theorem Filled.addGroup (h : t.Filled) {units : Nat} {roles : Roles}
    {inputFunctions : Option (List InputFunction)} {outputFunctions : Option (List OutputFunction)}
    {label : Option String} {id : GroupId} {grown : Topology}
    (hadd : t.addGroup units roles inputFunctions outputFunctions label = .ok (id, grown)) :
    grown.Filled := by
  obtain ⟨_, g, alone, _, _, hfresh, halone, hgrown⟩ := addGroup_eq_ok hadd
  have hfilled : alone.Filled := by
    subst halone
    intro other hother
    rcases List.mem_append.1 hother with hold | hnew
    · refine (h other hold).mono ?_
      intro i source hsource
      have hlt := (List.getElem?_eq_some_iff.1 hsource).1
      exact ⟨source, by rw [List.getElem?_append_left hlt, hsource], rfl⟩
    · rw [List.mem_singleton.1 hnew]
      exact ⟨by simp [hfresh.inputs_eq], by simp [hfresh.targets_eq], by simp [hfresh.weights_eq]⟩
  obtain rfl | ⟨label, rfl⟩ := hgrown
  · exact hfilled
  · exact hfilled.withLink _ _ _

theorem Filled.addLink (h : t.Filled) {source destination : GroupId} {label : Option String} {id : Nat}
    {linked : Topology} (hlink : t.addLink source destination label = .ok (id, linked)) :
    linked.Filled := by
  obtain ⟨_, _, _, rfl⟩ := addLink_eq_ok hlink
  exact h.withLink _ _ _

theorem filled_of_make {cap : Nat} (h : Topology.make cap = .ok t) : t.Filled := by
  obtain ⟨_, hadd⟩ := make_eq_ok h
  have hnone : (⟨[], [], [], cap⟩ : Topology).Filled := by simp [Filled]
  exact hnone.addGroup hadd

/-- Parameters are no part of the shapes. -/
theorem Filled.setParams (h : t.Filled) (id : GroupId) (params : GroupParams) :
    (t.modifyGroup id fun g => { g with params }).Filled := by
  have hframe := t.frame_setParams id params
  intro g hg
  obtain ⟨i, hi⟩ := List.mem_iff_getElem?.1 hg
  simp only [modifyGroup, List.getElem?_modify, Option.map_eq_map, Option.map_eq_some_iff] at hi
  obtain ⟨before, hbefore, rfl⟩ := hi
  obtain ⟨hinputs, htargets, hweights⟩ :=
    (h _ (List.mem_of_getElem? hbefore)).mono (keepsUnits_of_frame hframe.symm)
  split
  · exact ⟨hinputs, htargets, hweights⟩
  · exact ⟨hinputs, htargets, hweights⟩

theorem mem_blocks {values : Array Numeric.Binary64} {start fanIn units offset : Nat}
    {sources : List Group} {entry : GroupId × Array Numeric.Binary64}
    (h : entry ∈ Weights.blocks values start fanIn units offset sources) :
    ∃ source ∈ sources, entry.1 = source.id ∧ entry.2.size = units * source.units := by
  induction sources generalizing offset with
  | nil => cases h
  | cons first rest ih =>
    rw [Weights.blocks, List.mem_cons] at h
    obtain rfl | hrest := h
    · exact ⟨first, List.mem_cons_self, rfl, Array.size_ofFn⟩
    · obtain ⟨source, hsource, hid, hsize⟩ := ih hrest
      exact ⟨source, List.mem_cons_of_mem _ hsource, hid, hsize⟩

/-- Weights are read in blocks of the right size. -/
theorem Filled.withWeights (h : t.Filled) (ht : t.Sound) (values : Array Numeric.Binary64) :
    (t.withWeights values).Filled := by
  have hkeeps : t.KeepsUnits (t.withWeights values) := keepsUnits_of_frame (t.frame_withWeights values).symm
  intro g hg
  obtain ⟨i, hi⟩ := List.mem_iff_getElem?.1 hg
  obtain ⟨before, from_, hbefore, rfl⟩ := getElem?_distribute hi
  have hold := h _ (List.mem_of_getElem? hbefore)
  refine ⟨hold.inputs, hold.targets, ?_⟩
  intro entry hentry
  obtain ⟨source, hsource, hid, hsize⟩ := mem_blocks hentry
  obtain ⟨j, hj⟩ := List.mem_iff_getElem?.1 (List.mem_of_mem_filter hsource)
  obtain ⟨later, hlater, hunits⟩ := hkeeps hj
  rw [hid, (ht.placed hj).id_eq]
  exact ⟨later, hlater, by rw [hsize, hunits]⟩

end Topology

namespace Binding

theorem length_expand {list : ValueList} {g : Group} {default : UnitValue} {row : List UnitValue}
    (h : list.expand g default = .ok row) : row.length = g.units := by
  have hset (units : List Nat) (value : UnitValue) (row : List UnitValue) :
      (units.foldl (fun row unit => row.set unit value) row).length = row.length := by
    induction units generalizing row with
    | nil => rfl
    | cons unit rest ih => rw [List.foldl_cons, ih, List.length_set]
  unfold ValueList.expand at h
  split at h
  · split at h
    · cases h
      assumption
    · cases h
  · split at h
    · cases h
    · cases h
      rw [hset, List.length_replicate]

theorem mem_of_target {side : Side} {groups : List Group} {list : ValueList} {g : Group}
    (h : target side groups list = .ok g) : g ∈ groups := by
  unfold target at h
  split at h
  · split at h
    · cases h
      exact List.mem_singleton_self _
    · cases h
  · split at h
    · rename_i hfind
      cases h
      exact List.mem_of_find?_eq_some hfind
    · cases h

/-- Rows have the length of their groups. -/
def Rows.Fit (rows : Rows) (groups : List Group) : Prop :=
  ∀ entry ∈ rows, ∃ g ∈ groups, g.id = entry.1 ∧ entry.2.length = g.units

theorem Rows.Fit.bindList {side : Side} {groups : List Group} {default : UnitValue} {rows later : Rows}
    (hrows : rows.Fit groups) {list : ValueList}
    (h : Binding.bindList side groups default rows list = .ok later) : later.Fit groups := by
  unfold Binding.bindList at h
  obtain ⟨g, hg, h⟩ := bind_eq_ok_iff.1 h
  by_cases htwice : (rows.lookup g.id).isSome
  · rw [if_pos htwice] at h
    cases h
  rw [if_neg htwice] at h
  obtain ⟨row, hrow, h⟩ := bind_eq_ok_iff.1 h
  cases h
  intro entry hentry
  rcases List.mem_append.1 hentry with hold | hnew
  · exact hrows entry hold
  · rw [List.mem_singleton.1 hnew]
    exact ⟨g, mem_of_target hg, rfl, length_expand hrow⟩

theorem Rows.Fit.foldlM {side : Side} {groups : List Group} {default : UnitValue}
    {lists : List ValueList} {rows later : Rows} (hrows : rows.Fit groups)
    (h : lists.foldlM (Binding.bindList side groups default) rows = .ok later) : later.Fit groups :=
  foldlM_keeps (P := fun _ rows => Rows.Fit rows groups) (fun _ _ _ _ hfit hnext => hfit.bindList hnext) hrows h

/-- An event gives every group a row of its length. -/
theorem forall₂_bindEvent {side : Side} {groups : List Group} {default : UnitValue}
    {lists : List ValueList} {rows : List (List UnitValue)}
    (hids : ∀ a ∈ groups, ∀ b ∈ groups, a.id = b.id → a = b)
    (h : bindEvent side groups default lists = .ok rows) :
    List.Forall₂ (fun g row => row.length = g.units) groups rows := by
  unfold bindEvent at h
  obtain ⟨bound, hbound, h⟩ := bind_eq_ok_iff.1 h
  cases h
  have hnone : Rows.Fit [] groups := by simp [Rows.Fit]
  have hfit := hnone.foldlM hbound
  rw [List.forall₂_map_right_iff, List.forall₂_same]
  intro g hg
  cases hlookup : bound.lookup g.id with
  | none => simp
  | some row =>
    obtain ⟨before, after, hsplit, _⟩ := List.lookup_eq_some_iff.1 hlookup
    obtain ⟨other, hother, hid, hlength⟩ := hfit (g.id, row) (by simp [hsplit])
    rw [Option.getD_some, hlength, hids other hother g hg hid]

/-- A column has a number of rows of its group. -/
def Sized (rows : Nat) (groups : List Group) (columns : List (Array UnitValue)) : Prop :=
  List.Forall₂ (fun g column => column.size = rows * g.units) groups columns

/-- A column has whole rows of its group. -/
def Whole (groups : List Group) (columns : List (Array UnitValue)) : Prop :=
  List.Forall₂ (fun g column => g.units ∣ column.size) groups columns

theorem Sized.whole {count : Nat} {groups : List Group} {columns : List (Array UnitValue)}
    (h : Sized count groups columns) : Whole groups columns :=
  h.imp fun _ _ hsize => ⟨count, hsize.trans (Nat.mul_comm _ _)⟩

theorem Sized.of_map {count : Nat} {groups : List Group} {column : Group → Array UnitValue}
    (h : Sized count groups (groups.map column)) : ∀ g ∈ groups, (column g).size = count * g.units :=
  List.forall₂_same.1 (List.forall₂_map_right_iff.1 h)

theorem Sized.addRows {count : Nat} {groups : List Group} {columns : List (Array UnitValue)}
    {rows : List (List UnitValue)} (hcolumns : Sized count groups columns)
    (hrows : List.Forall₂ (fun g row => row.length = g.units) groups rows) :
    Sized (count + 1) groups (Binding.addRows columns rows) := by
  unfold Binding.addRows
  induction hcolumns generalizing rows with
  | nil =>
    cases hrows
    exact .nil
  | cons hsize _ ih =>
    cases hrows with
    | cons hlength hrest =>
      refine .cons ?_ (ih hrest)
      rw [Nat.succ_mul, ← hsize, ← hlength]
      simp only [← Array.length_toList, Array.appendList_eq_append, Array.toList_appendList,
        List.length_append]

theorem Sized.addEvent {t : Topology} {defaults : SideValues} {event : Event} {before columns : Columns}
    {count : Nat} (hids : ∀ a ∈ t.groups, ∀ b ∈ t.groups, a.id = b.id → a = b)
    (hbefore : Sized count t.inputGroups before.inputs ∧ Sized count t.outputGroups before.targets)
    (h : addEvent t defaults before event = .ok columns) :
    Sized (count + 1) t.inputGroups columns.inputs ∧ Sized (count + 1) t.outputGroups columns.targets := by
  unfold Binding.addEvent at h
  obtain ⟨inputs, hinputRows, h⟩ := bind_eq_ok_iff.1 h
  obtain ⟨targets, htargetRows, h⟩ := bind_eq_ok_iff.1 h
  cases h
  refine ⟨hbefore.1.addRows (forall₂_bindEvent ?_ hinputRows), hbefore.2.addRows (forall₂_bindEvent ?_ htargetRows)⟩
  all_goals
    intro a ha b hb
    exact hids a (List.mem_of_mem_filter ha) b (List.mem_of_mem_filter hb)

/-- Every column has a row for each event. -/
theorem sized_columns {t : Topology} (ht : t.Sound) {defaults : SideValues} {events : List Event}
    {columns : Columns} (h : Binding.columns t defaults events = .ok columns) :
    Sized events.length t.inputGroups columns.inputs ∧ Sized events.length t.outputGroups columns.targets := by
  have hids : ∀ a ∈ t.groups, ∀ b ∈ t.groups, a.id = b.id → a = b := by
    intro a ha b hb hid
    have hfound := ht.group?_id ha
    rw [hid, ht.group?_id hb] at hfound
    exact (Option.some.inj hfound).symm
  refine foldlM_keeps (P := fun done columns =>
    Sized done.length t.inputGroups columns.inputs ∧ Sized done.length t.outputGroups columns.targets) ?_ ?_ h
  · intro done before event after hbefore hadd
    rw [List.length_append]
    exact Sized.addEvent hids hbefore hadd
  · constructor
    all_goals exact List.forall₂_map_right_iff.2 (List.forall₂_same.2 fun _ _ => by simp)

theorem whole_columns {t : Topology} (ht : t.Sound) {defaults : SideValues} {events : List Event}
    {columns : Columns} (h : Binding.columns t defaults events = .ok columns) :
    Whole t.inputGroups columns.inputs ∧ Whole t.outputGroups columns.targets :=
  ⟨(sized_columns ht h).1.whole, (sized_columns ht h).2.whole⟩

/-- A column that is found for a group is one of its own. -/
theorem Whole.lookup {groups : List Group} {columns : List (Array UnitValue)} (h : Whole groups columns)
    {id : GroupId} {column : Array UnitValue}
    (hlookup : ((groups.map (·.id)).zip columns).lookup id = some column) :
    ∃ g ∈ groups, g.id = id ∧ g.units ∣ column.size := by
  induction h with
  | nil => simp at hlookup
  | @cons g first _ _ hwhole _ ih =>
    rw [List.map_cons, List.zip_cons_cons, List.lookup_cons] at hlookup
    split at hlookup
    · rename_i hid
      cases hlookup
      exact ⟨g, List.mem_cons_self, (eq_of_beq hid).symm, hwhole⟩
    · obtain ⟨found, hfound, hid, hsize⟩ := ih hlookup
      exact ⟨found, List.mem_cons_of_mem _ hfound, hid, hsize⟩

end Binding

/-- Compiled examples come in whole rows. -/
theorem Topology.Filled.withValues {t : Topology} (h : t.Filled) (ht : t.Sound)
    {columns : Binding.Columns} (hinputs : Binding.Whole t.inputGroups columns.inputs)
    (htargets : Binding.Whole t.outputGroups columns.targets) : (t.withValues columns).Filled := by
  have hkeeps : t.KeepsUnits (t.withValues columns) := keepsUnits_of_frame (t.frame_withValues columns).symm
  have hcolumn {groups : List Group} {side : List (Array UnitValue)} {g : Group} {i : Nat}
      (hi : t.groups[i]? = some g) (hwhole : Binding.Whole groups side)
      (hgroups : ∀ other ∈ groups, other ∈ t.groups) {own : Array UnitValue} (hown : g.units ∣ own.size) :
      g.units ∣ ((((groups.map (·.id)).zip side).lookup g.id).getD own).size := by
    cases hlookup : ((groups.map (·.id)).zip side).lookup g.id with
    | none => exact hown
    | some column =>
      obtain ⟨found, hfound, hid, hsize⟩ := hwhole.lookup hlookup
      obtain ⟨j, hj⟩ := List.mem_iff_getElem?.1 (hgroups found hfound)
      rw [(ht.placed hj).id_eq, (ht.placed hi).id_eq] at hid
      rw [hid, hi] at hj
      cases hj
      exact hsize
  intro g hg
  obtain ⟨before, hbefore, rfl⟩ := List.mem_map.1 hg
  obtain ⟨i, hi⟩ := List.mem_iff_getElem?.1 hbefore
  obtain ⟨holdInputs, holdTargets, hweights⟩ := (h before hbefore).mono hkeeps
  exact ⟨hcolumn hi hinputs (fun _ hmem => List.mem_of_mem_filter hmem) holdInputs,
    hcolumn hi htargets (fun _ hmem => List.mem_of_mem_filter hmem) holdTargets, hweights⟩

end PerceptronMesh

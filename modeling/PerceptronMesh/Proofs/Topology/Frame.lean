import PerceptronMesh.Compile.Basic
import PerceptronMesh.Example.Binding
import PerceptronMesh.Proofs.Partition.Plan
import PerceptronMesh.Weights.Load

/-!
What of a topology a compilation looks at. Weights, values and parameters come and go
between stages; the rest of a topology is its frame, and topologies with one frame are
sound together and compile to the same graph.
-/

namespace PerceptronMesh

namespace Group

def withoutWeights (g : Group) : Group := { g with weights := [] }

def withoutParams (g : Group) : Group := { g with params := {} }

/-- The group without weights, values and parameters. -/
def frame (g : Group) : Group := { g with params := {}, weights := [], inputs := #[], targets := #[] }

end Group

namespace Topology

/-- The topology with every group changed. -/
def mapGroups (t : Topology) (change : Group → Group) : Topology :=
  { t with groups := t.groups.map change }

def frame (t : Topology) : Topology := t.mapGroups Group.frame

variable {t other : Topology}

theorem group_eq_ok_iff {id : GroupId} {g : Group} : t.group id = .ok g ↔ t.groups[id]? = some g := by
  unfold group group?
  cases t.groups[id]? with
  | none => simp
  | some held => simp

theorem group_mapGroups (change : Group → Group) (id : GroupId) :
    (t.mapGroups change).group id = (t.group id).map change := by
  unfold group group?
  rw [mapGroups, List.getElem?_map]
  cases t.groups[id]? <;> rfl

theorem exists_group_of_frame (h : t.frame = other.frame) {i : Nat} {g : Group}
    (hg : other.groups[i]? = some g) : ∃ before, t.groups[i]? = some before ∧ before.frame = g.frame := by
  have hmap : t.groups.map Group.frame = other.groups.map Group.frame := congrArg Topology.groups h
  have hat : (t.groups.map Group.frame)[i]? = some g.frame := by rw [hmap, List.getElem?_map, hg]; rfl
  rw [List.getElem?_map, Option.map_eq_some_iff] at hat
  exact hat

theorem length_groups_of_frame (h : t.frame = other.frame) : t.groups.length = other.groups.length := by
  have hmap : t.groups.map Group.frame = other.groups.map Group.frame := congrArg Topology.groups h
  simpa using congrArg List.length hmap

theorem fields_of_frame (h : t.frame = other.frame) :
    t.maxSubgroupUnits = other.maxSubgroupUnits ∧ t.outputChain = other.outputChain :=
  ⟨(congrArg Topology.maxSubgroupUnits h :), (congrArg Topology.outputChain h :)⟩

theorem group_fields_of_frame {g before : Group} (h : before.frame = g.frame) :
    before.id = g.id ∧ before.units = g.units ∧ before.subunits = g.subunits :=
  ⟨(congrArg Group.id h :), (congrArg Group.units h :), (congrArg Group.subunits h :)⟩

/-- Soundness is a matter of the frame. -/
theorem Sound.of_frame (ht : t.Sound) (h : t.frame = other.frame) : other.Sound := by
  obtain ⟨hcap, hchain⟩ := fields_of_frame h
  have hlength := length_groups_of_frame h
  refine ⟨hcap ▸ ht.cap_pos, hlength ▸ ht.groups_pos, ?_, hchain ▸ ht.chain_nodup, ?_⟩
  · intro i g hg
    obtain ⟨before, hbefore, hframe⟩ := exists_group_of_frame h hg
    obtain ⟨hid, hunits, hsubunits⟩ := group_fields_of_frame hframe
    obtain ⟨hidEq, hpos, hsplit⟩ := ht.placed hbefore
    exact ⟨hid ▸ hidEq, hunits ▸ hpos, by rw [← hsubunits, ← hunits, ← hcap, hsplit]⟩
  · rw [← hchain, ← hlength]
    exact ht.chain_lt

theorem enumerateSubgroups_frame (groups : List Group) (start : Nat) :
    enumerateSubgroups (groups.map Group.frame) start = enumerateSubgroups groups start := by
  induction groups generalizing start with
  | nil => rfl
  | cons g rest ih => rw [List.map_cons, enumerateSubgroups, ih]; rfl

theorem oversizedGroups_frame (most : Nat) :
    t.frame.oversizedGroups most = (t.oversizedGroups most).map Group.frame := by
  simp only [oversizedGroups, frame, mapGroups, List.filter_map]
  rfl

theorem oversizedGroups_of_frame (h : t.frame = other.frame) {most : Nat}
    (hnone : other.oversizedGroups most = []) : t.oversizedGroups most = [] := by
  have hframe : (t.oversizedGroups most).map Group.frame = (other.oversizedGroups most).map Group.frame := by
    rw [← oversizedGroups_frame, h, oversizedGroups_frame]
  rw [hnone] at hframe
  exact List.map_eq_nil_iff.1 hframe

theorem plan_frame (limits : Limits) : Plan.make t.frame limits = Plan.make t limits := by
  have hcounts : t.frame.groups.map Group.subgroups = t.groups.map Group.subgroups := by
    simp only [frame, mapGroups, List.map_map]
    rfl
  have hsubgroups : enumerateSubgroups t.frame.groups 0 = enumerateSubgroups t.groups 0 :=
    enumerateSubgroups_frame t.groups 0
  unfold Plan.make
  rw [oversizedGroups_frame, hcounts, hsubgroups]
  cases t.oversizedGroups limits.maxGroupUnits <;> rfl

/-- Compilation is a matter of the frame. -/
theorem compile_of_frame (h : t.frame = other.frame) (limits : Limits) :
    compile t limits = compile other limits := by
  unfold compile
  rw [← plan_frame (t := t), h, plan_frame]

/-- What a change of one group keeps of every group stays the same. -/
theorem mapGroups_modifyGroup {blank change : Group → Group} (h : ∀ g, blank (change g) = blank g)
    (t : Topology) (id : GroupId) : (t.modifyGroup id change).mapGroups blank = t.mapGroups blank := by
  have hgroups : (t.groups.modify id change).map blank = t.groups.map blank := by
    apply List.ext_getElem?
    intro i
    simp only [List.getElem?_map, List.getElem?_modify, Option.map_eq_map, Option.map_map]
    congr 1
    funext g
    simp only [Function.comp_apply]
    split
    · exact h g
    · rfl
  unfold mapGroups
  rw [modifyGroup, hgroups]

/-- New parameters of a group change nothing else. -/
theorem withoutParams_setParams (t : Topology) (id : GroupId) (params : GroupParams) :
    (t.modifyGroup id fun g => { g with params }).mapGroups Group.withoutParams =
      t.mapGroups Group.withoutParams := by
  apply mapGroups_modifyGroup
  intro g
  rfl

theorem frame_setParams (t : Topology) (id : GroupId) (params : GroupParams) :
    (t.modifyGroup id fun g => { g with params }).frame = t.frame := by
  apply mapGroups_modifyGroup
  intro g
  rfl

theorem frame_withValues (t : Topology) (columns : Binding.Columns) :
    (t.withValues columns).frame = t.frame := by
  simp only [withValues, frame, mapGroups, List.map_map]
  rfl

theorem getElem?_distribute {values : Array Numeric.Binary64} {start : Nat} {groups : List Group} {i : Nat}
    {g : Group} (h : (Weights.distribute t values start groups)[i]? = some g) :
    ∃ before from_, groups[i]? = some before ∧ g = { before with
      weights := Weights.blocks values from_ (Weights.fanIn t before) before.units 0
        (Weights.sources t before) } := by
  induction groups generalizing start i with
  | nil => simp [Weights.distribute] at h
  | cons first rest ih =>
    rw [Weights.distribute] at h
    cases i with
    | zero =>
      cases h
      exact ⟨first, start, rfl, rfl⟩
    | succ i => exact ih h

theorem withoutWeights_distribute (values : Array Numeric.Binary64) (start : Nat) (groups : List Group) :
    (Weights.distribute t values start groups).map Group.withoutWeights =
      groups.map Group.withoutWeights := by
  induction groups generalizing start with
  | nil => rfl
  | cons first rest ih => rw [Weights.distribute, List.map_cons, ih]; rfl

/-- New weights change nothing else. -/
theorem withoutWeights_withWeights (values : Array Numeric.Binary64) :
    (t.withWeights values).mapGroups Group.withoutWeights = t.mapGroups Group.withoutWeights := by
  unfold mapGroups withWeights
  rw [withoutWeights_distribute]

theorem frame_of_withoutWeights
    (h : t.mapGroups Group.withoutWeights = other.mapGroups Group.withoutWeights) :
    t.frame = other.frame := by
  have hframe (t : Topology) : (t.mapGroups Group.withoutWeights).frame = t.frame := by
    simp only [frame, mapGroups, List.map_map]
    rfl
  rw [← hframe t, h, hframe]

/-- Weights that are read from a file are spread over the topology. -/
theorem readWeightsFile_eq_ok {files : FileTree} {path : Path} {info : Weights.Info}
    (h : t.readWeightsFile files path = .ok (info, other)) : ∃ values, other = t.withWeights values := by
  unfold readWeightsFile readWeights at h
  cases hread : files.readText path with
  | error cause =>
    rw [hread] at h
    cases h
  | ok text =>
    rw [hread] at h
    obtain ⟨⟨_, values⟩, _, h⟩ := bind_eq_ok_iff.1 h
    cases h
    exact ⟨values, rfl⟩

theorem frame_withWeights (t : Topology) (values : Array Numeric.Binary64) :
    (t.withWeights values).frame = t.frame :=
  frame_of_withoutWeights (withoutWeights_withWeights values)

end Topology

end PerceptronMesh

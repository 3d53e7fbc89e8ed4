import PerceptronMesh.Proofs.Compile.Wired

/-!
The units of a plan: one Input and one Threshold unit for every subgroup, a Sum unit for
every node of its tree, and a Weight unit for every pair. Their identifiers differ, and
every connection of the plan runs between two of them.
-/

namespace PerceptronMesh.Plan

/-- The units of one subgroup, in the order in which they are created. -/
def unitsOf (p : Plan) (sg : Subgroup) : List MeshUnit :=
  [.input sg, .threshold sg] ++ (List.range p.tree.nodes).map (MeshUnit.sum sg) ++
    p.subgroups.map (MeshUnit.weight sg)

/-- The units of a plan, subgroup by subgroup. -/
def units (p : Plan) : List MeshUnit := p.subgroups.flatMap p.unitsOf

/-- The units that a plan gives its subgroups. -/
inductive HasUnit (p : Plan) : MeshUnit → Prop
  | input {x : Subgroup} : x ∈ p.subgroups → HasUnit p (.input x)
  | threshold {x : Subgroup} : x ∈ p.subgroups → HasUnit p (.threshold x)
  | sum {x : Subgroup} {node : Nat} : x ∈ p.subgroups → node < p.tree.nodes → HasUnit p (.sum x node)
  | weight {x y : Subgroup} : x ∈ p.subgroups → y ∈ p.subgroups → HasUnit p (.weight x y)

variable {p : Plan}

theorem mem_units_iff {u : MeshUnit} : u ∈ p.units ↔ p.HasUnit u := by
  simp only [units, unitsOf, List.mem_flatMap, List.mem_append, List.mem_cons, List.not_mem_nil, or_false,
    List.mem_map, List.mem_range]
  constructor
  · rintro ⟨x, hx, ((rfl | rfl) | ⟨node, hnode, rfl⟩) | ⟨y, hy, rfl⟩⟩
    · exact .input hx
    · exact .threshold hx
    · exact .sum hx hnode
    · exact .weight hx hy
  · intro h
    cases h with
    | input hx => exact ⟨_, hx, .inl (.inl (.inl rfl))⟩
    | threshold hx => exact ⟨_, hx, .inl (.inl (.inr rfl))⟩
    | sum hx hnode => exact ⟨_, hx, .inl (.inr ⟨_, hnode, rfl⟩)⟩
    | weight hx hy => exact ⟨_, hx, .inr ⟨_, hy, rfl⟩⟩

theorem HasUnit.id_mem {u : MeshUnit} (h : p.HasUnit u) : u.id ∈ p.units.map (·.id) :=
  List.mem_map_of_mem (mem_units_iff.2 h)

/-- A role of which every subgroup has one unit. -/
theorem filter_units_role {role : UnitRole} {unit : Subgroup → MeshUnit}
    (hunit : ∀ x, [MeshUnit.input x, .threshold x].filter (·.role == role) = [unit x])
    (hsum : role ≠ .sum) (hweight : role ≠ .weight) :
    p.units.filter (·.role == role) = p.subgroups.map unit := by
  have hown (x : Subgroup) : (p.unitsOf x).filter (·.role == role) = [unit x] := by
    have hsums : ((List.range p.tree.nodes).map (MeshUnit.sum x)).filter (·.role == role) = [] := by
      simp only [List.filter_eq_nil_iff, List.mem_map]
      rintro _ ⟨node, _, rfl⟩
      simpa [MeshUnit.sum] using hsum.symm
    have hweights : (p.subgroups.map (MeshUnit.weight x)).filter (·.role == role) = [] := by
      simp only [List.filter_eq_nil_iff, List.mem_map]
      rintro _ ⟨source, _, rfl⟩
      simpa [MeshUnit.weight] using hweight.symm
    rw [unitsOf, List.filter_append, List.filter_append, hsums, hweights, List.append_nil, List.append_nil, hunit]
  rw [units, List.filter_flatMap]
  simp only [hown]
  exact List.map_eq_flatMap.symm

/-- Identifiers of one subgroup's own units. -/
theorem map_id_units :
    p.units.map (·.id) = p.subgroups.flatMap fun x =>
      inputOf x :: thresholdOf x :: ((List.range p.tree.nodes).map (UnitId.sum x.group x.subgroup) ++
        p.subgroups.map (weightOf x)) := by
  simp only [units, unitsOf, List.map_flatMap, List.map_append, List.map_map, List.map_cons,
    List.cons_append, List.nil_append]
  rfl

namespace Coherent

variable (hp : p.Coherent)
include hp

theorem globalRoot_eq : ∃ first ∈ p.subgroups, first.group = p.firstGroup ∧ first.subgroup = 0 ∧
    p.globalRoot = some (rootOf first) := by
  obtain ⟨first, hmem, hlookup, hgroup, hsubgroup⟩ := hp.exists_first
  exact ⟨first, hmem, hgroup, hsubgroup, by simp [globalRoot, hlookup]⟩

theorem weightOf_inj {a b x y : Subgroup} (ha : a ∈ p.subgroups) (hb : b ∈ p.subgroups)
    (hx : x ∈ p.subgroups) (hy : y ∈ p.subgroups) (h : weightOf a b = weightOf x y) :
    a = x ∧ b = y := by
  obtain ⟨hag, has, hbg, hbs⟩ := UnitId.weight.inj h
  exact ⟨hp.eq_of_place_eq ha hx hag has, hp.eq_of_place_eq hb hy hbg hbs⟩

theorem rootOf_inj {x y : Subgroup} (hx : x ∈ p.subgroups) (hy : y ∈ p.subgroups)
    (h : rootOf x = rootOf y) : x = y :=
  hp.eq_of_place_eq hx hy (UnitId.sum.inj h).1 (UnitId.sum.inj h).2.1

theorem inputOf_inj {x y : Subgroup} (hx : x ∈ p.subgroups) (hy : y ∈ p.subgroups)
    (h : inputOf x = inputOf y) : x = y :=
  hp.eq_of_place_eq hx hy (UnitId.input.inj h).1 (UnitId.input.inj h).2

theorem thresholdOf_inj {x y : Subgroup} (hx : x ∈ p.subgroups) (hy : y ∈ p.subgroups)
    (h : thresholdOf x = thresholdOf y) : x = y :=
  hp.eq_of_place_eq hx hy (UnitId.threshold.inj h).1 (UnitId.threshold.inj h).2

theorem nodup_ids : (p.units.map (·.id)).Nodup := by
  rw [map_id_units, List.nodup_flatMap]
  constructor
  · intro x hx
    have hsums : ((List.range p.tree.nodes).map (UnitId.sum x.group x.subgroup)).Nodup :=
      List.nodup_range.map fun a b hab => (UnitId.sum.inj hab).2.2
    have hweights : (p.subgroups.map (weightOf x)).Nodup := by
      refine List.Nodup.map_on ?_ hp.nodup_subgroups
      intro a ha b hb hab
      exact (hp.weightOf_inj hx ha hx hb hab).2
    have hapart : ∀ a ∈ (List.range p.tree.nodes).map (UnitId.sum x.group x.subgroup),
        ∀ b ∈ p.subgroups.map (weightOf x), a ≠ b := by
      simp [weightOf]
    have htail := List.nodup_append.2 ⟨hsums, hweights, hapart⟩
    simp [inputOf, thresholdOf, weightOf, htail]
  · refine hp.nodup_subgroups.pairwise_of_forall_ne ?_
    intro x hx y hy hne id hidx hidy
    -- all of them carry their subgroup's place
    have hplace : x.group = y.group ∧ x.subgroup = y.subgroup := by
      simp only [inputOf, thresholdOf, weightOf, List.mem_cons, List.mem_append, List.mem_map,
        List.mem_range] at hidx hidy
      grind
    exact hne (hp.eq_of_place_eq hx hy hplace.1 hplace.2)

theorem root_mem {x : Subgroup} (hx : x ∈ p.subgroups) : rootOf x ∈ p.units.map (·.id) := by
  obtain ⟨maxLinks, htree⟩ := hp.tree_eq
  exact HasUnit.id_mem (.sum hx (htree ▸ TreeLayout.nodes_make_pos _ _))

theorem leaf_mem {x y : Subgroup} (hx : x ∈ p.subgroups) (hy : y ∈ p.subgroups) :
    p.leafOf x y ∈ p.units.map (·.id) := by
  obtain ⟨maxLinks, htree⟩ := hp.tree_eq
  refine HasUnit.id_mem (.sum hx ?_)
  rw [htree]
  exact TreeLayout.leafNode_make_lt (hp.index_lt hy)

/-- A root reports to the first root of its group, and that one to the global root. -/
theorem reportsTo_eq_some_iff {x : Subgroup} {root target : UnitId} (hx : x ∈ p.subgroups)
    (hroot : p.globalRoot = some root) :
    p.reportsTo root x = some target ↔
      ∃ y ∈ p.subgroups, y.subgroup = 0 ∧ target = rootOf y ∧
        (x.subgroup ≠ 0 ∧ y.group = x.group ∨
          x.subgroup = 0 ∧ x.group ≠ p.firstGroup ∧ y.group = p.firstGroup) := by
  obtain ⟨first, hfirst, hgroup, hsubgroup, hglobal⟩ := hp.globalRoot_eq
  cases hroot.symm.trans hglobal
  unfold reportsTo
  by_cases hlater : x.subgroup = 0
  · rw [if_neg (not_not.2 hlater)]
    by_cases hown : x.group = p.firstGroup
    · simp [hlater, hown]
    · rw [if_pos hown]
      constructor
      · rintro ⟨rfl⟩
        exact ⟨first, hfirst, hsubgroup, rfl, .inr ⟨hlater, hown, hgroup⟩⟩
      · rintro ⟨y, hy, hzero, rfl, ⟨hlate, _⟩ | ⟨_, _, hygroup⟩⟩
        · exact absurd hlater hlate
        · rw [hp.eq_of_place_eq hfirst hy (hgroup.trans hygroup.symm) (hsubgroup.trans hzero.symm)]
  · rw [if_pos hlater]
    constructor
    · rintro ⟨rfl⟩
      obtain ⟨y, hy, hygroup, hzero⟩ := hp.complete (hp.count_pos _ (hp.group_lt hx))
      exact ⟨y, hy, hzero, by rw [rootOf, hygroup, hzero], .inl ⟨hlater, hygroup⟩⟩
    · rintro ⟨y, hy, hzero, rfl, ⟨_, hygroup⟩ | ⟨hlate, _⟩⟩
      · rw [rootOf, hygroup, hzero]
      · exact absurd hlate hlater

/-- Nothing is wired to or from what is no unit. -/
theorem ends_mem {source target : UnitId} {c : Category} {packets : UInt32}
    (h : p.Wired (p.units.map (·.id)) source target c packets) :
    source ∈ p.units.map (·.id) ∧ target ∈ p.units.map (·.id) := by
  cases h with
  | activation hx hy => exact ⟨HasUnit.id_mem (.threshold hy), HasUnit.id_mem (.weight hx hy)⟩
  | weighted hx hy | delta hx hy | pulse hx hy =>
    exact ⟨HasUnit.id_mem (.weight hx hy), hp.leaf_mem hx hy⟩
  | derivative hx hy => exact ⟨HasUnit.id_mem (.input hx), HasUnit.id_mem (.weight hx hy)⟩
  | weightedBack hx hy => exact ⟨HasUnit.id_mem (.weight hx hy), hp.leaf_mem hy hx⟩
  | scale hx hy hroot =>
    obtain ⟨first, hfirst, _, _, hglobal⟩ := hp.globalRoot_eq
    cases hroot.symm.trans hglobal
    exact ⟨hp.root_mem hfirst, HasUnit.id_mem (.weight hx hy)⟩
  | releaseTarget hx hy => exact ⟨hp.root_mem hx, HasUnit.id_mem (.weight hx hy)⟩
  | releaseSource hx hy => exact ⟨hp.root_mem hy, HasUnit.id_mem (.weight hx hy)⟩
  | netInput hx => exact ⟨hp.root_mem hx, HasUnit.id_mem (.input hx)⟩
  | output hx => exact ⟨HasUnit.id_mem (.input hx), HasUnit.id_mem (.threshold hx)⟩
  | errorBack hx => exact ⟨HasUnit.id_mem (.threshold hx), HasUnit.id_mem (.input hx)⟩
  | sumBack hx => exact ⟨hp.root_mem hx, HasUnit.id_mem (.threshold hx)⟩
  | branch hx habove _ =>
    exact ⟨HasUnit.id_mem (.sum hx (TreeLayout.lt_nodes_of_parent habove)),
      HasUnit.id_mem (.sum hx (TreeLayout.above_lt_nodes_of_parent habove))⟩
  | sibling hx hroot htarget _ =>
    obtain ⟨y, hy, _, rfl, _⟩ := (hp.reportsTo_eq_some_iff hx hroot).1 htarget
    exact ⟨hp.root_mem hx, hp.root_mem hy⟩
  | decision hi hnext =>
    exact ⟨HasUnit.id_mem (.threshold (hp.mem_of_stopChain hi)),
      HasUnit.id_mem (.threshold (hp.mem_of_stopChain hnext))⟩
  | broadcast hlast hmem _ =>
    exact ⟨HasUnit.id_mem (.threshold (hp.mem_of_lastOutput hlast)), hmem⟩

end Coherent

end PerceptronMesh.Plan

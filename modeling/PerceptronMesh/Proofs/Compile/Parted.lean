import PerceptronMesh.Proofs.Compile.Reduction
import PerceptronMesh.Proofs.Graph.Partitions

/-!
The partitions of a compiled graph. The numbers in a partition name are those of its unit's
identifier, so no two units send under one name.
-/

namespace PerceptronMesh.Plan

variable {p : Plan} {g : Graph}

/-- A unit's role and numbers make its identifier. -/
theorem HasUnit.id_eq {u v : MeshUnit} (hu : p.HasUnit u) (hv : p.HasUnit v) (hrole : u.role = v.role)
    (hnumbers : u.numbers = v.numbers) : u.id = v.id := by
  cases hu <;> cases hv <;> cases hrole <;>
    simp only [MeshUnit.numbers, MeshUnit.input, MeshUnit.threshold, MeshUnit.sum, MeshUnit.weight,
      Option.elim_none, Option.elim_some, Option.toList_none, Option.toList_some, List.append_nil,
      List.nil_append, List.cons.injEq, and_true] at hnumbers
  case input.input | threshold.threshold =>
    obtain ⟨hgroup, hsubgroup⟩ := hnumbers
    exact congrArg₂ _ hgroup hsubgroup
  case sum.sum =>
    obtain ⟨hgroup, hsubgroup, hnode⟩ := hnumbers
    simp only [MeshUnit.sum, hgroup, hsubgroup, hnode]
  case weight.weight =>
    obtain ⟨hgroup, hsubgroup, hfromGroup, hfromSubgroup⟩ := hnumbers
    simp only [MeshUnit.weight, hgroup, hsubgroup, hfromGroup, hfromSubgroup]

namespace Drawn

variable (hg : p.Drawn g) (hp : p.Coherent)
include hg hp

theorem nodup_unit_ids : (g.units.toList.map (·.id)).Nodup := by
  rw [hg.units_eq]
  exact hp.nodup_ids

omit hp in
theorem contains_source {e : Edge} (he : e ∈ g.edges) : g.contains e.source := by
  obtain ⟨sender, hsender, _⟩ := hg.realizes.partition_eq e he
  rw [Graph.contains, hsender]
  rfl

/-- A partition has the name that its unit gives it. -/
theorem partition_name {partition : Partition} (h : partition ∈ g.partitions) :
    ∃ u, p.HasUnit u ∧ partition.name = u.partitionName partition.category ∧ partition.source = u.id := by
  obtain ⟨u, hu, c, first, rest, hedges, rfl⟩ := Graph.mem_partitions_iff.1 h
  obtain ⟨hfirst, hsource, hcategory⟩ := Graph.Realizes.mem_outEdges.1 (hedges ▸ List.mem_cons_self)
  obtain ⟨sender, hsender, hname⟩ := hg.realizes.partition_eq first hfirst
  obtain ⟨hunit, hid⟩ := (hg.unit?_eq_some_iff hp).1 hsender
  exact ⟨sender, hunit, hcategory ▸ hname, (hid.trans hsource).symm⟩

theorem eq_of_name_eq {a b : Partition} (ha : a ∈ g.partitions) (hb : b ∈ g.partitions)
    (hname : a.name = b.name) : a.origin = b.origin := by
  obtain ⟨u, hu, huname, husource⟩ := hg.partition_name hp ha
  obtain ⟨v, hv, hvname, hvsource⟩ := hg.partition_name hp hb
  obtain ⟨hcategory, hrole, hnumbers⟩ := MeshUnit.partitionName_inj (huname.symm.trans (hname.trans hvname))
  rw [Partition.origin, Partition.origin, husource, hvsource, hcategory, hu.id_eq hv hrole hnumbers]

theorem parted : g.Parted := by
  have hids := hg.nodup_unit_ids hp
  have hsources (e : Edge) (he : e ∈ g.edges) : g.contains e.source := hg.contains_source he
  have horigin := Graph.nodup_origin hids
  refine ⟨horigin, fun id c => Graph.mem_origin_iff hsources, ?_, Graph.sum_fanOut hids hsources, ?_⟩
  · intro partition hpartition
    rw [Graph.fanOut_eq_count hpartition, Partition.origin, Graph.count_origin]
  · refine (horigin.of_map _).map_on fun a ha b hb hname => ?_
    exact List.inj_on_of_nodup_map horigin ha hb (hg.eq_of_name_eq hp ha hb hname)

end Drawn

end PerceptronMesh.Plan

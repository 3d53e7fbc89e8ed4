import PerceptronMesh.Proofs.Compile.Audit
import PerceptronMesh.Proofs.Partition.Split
import PerceptronMesh.Proofs.Payload.Weights
import PerceptronMesh.Proofs.Topology.Filled
import PerceptronMesh.Proofs.Weights.Order
import PerceptronMesh.Proofs.Weights.Text

/-!
Weights on their way from a text to the units. Each weight of an accepted text reaches the one
Weight unit between the subgroups of its two units, and Weight units between groups that are not
linked hold no weights and learn nothing.
-/

namespace PerceptronMesh

open Fixed Numeric PayloadSource

/-- A Weight unit joins the subgroups of two units. -/
def MeshUnit.Joins (w : MeshUnit) (g f : Group) (u v : Nat) : Prop :=
  w.role = .weight ∧ w.group = g.id ∧ g.Contains w.subgroup u ∧
    ∃ fromSubgroup, w.source = some (f.id, fromSubgroup) ∧ f.Contains fromSubgroup v

/-- A Weight unit leads from one subgroup to another. -/
theorem Plan.Drawn.exists_weight {p : Plan} {graph : Graph} (h : p.Drawn graph) {w : MeshUnit}
    (hw : w ∈ graph.units) (hrole : w.role = .weight) :
    ∃ x ∈ p.subgroups, ∃ y ∈ p.subgroups, w = .weight x y := by
  cases h.mem_units_iff.1 hw with
  | input | threshold | sum => cases hrole
  | weight hx hy => exact ⟨_, hx, _, hy, rfl⟩

namespace Topology.Sound

variable {t : Topology} (ht : t.Sound) {values : Array Binary64}
include ht

/-- A group that took over weights is as it was but for these. It holds weights for linked groups
only, and for these as many as there are pairs of units. -/
theorem exists_of_withWeights {i : GroupId} {later : Group}
    (hlater : (t.withWeights values).group? i = some later) :
    ∃ g weights, t.group? i = some g ∧ later = { g with weights } ∧
      ∀ id f held, t.group? id = some f → later.weightsFrom? id = some held →
        id ∈ g.linksFrom ∧ held.size = g.units * f.units := by
  obtain ⟨g, start, hg, hsame⟩ := getElem?_distribute hlater
  refine ⟨g, _, hg, hsame, fun id f held hf hheld => ?_⟩
  obtain ⟨entry, hfind, rfl⟩ := Option.map_eq_some_iff.1 hheld
  rw [hsame] at hfind
  obtain ⟨source, hsource, hid, hsize⟩ := mem_blocks (List.mem_of_find?_eq_some hfind)
  obtain ⟨hmem, hlinked⟩ := Weights.mem_sources.1 hsource
  have hentry : entry.1 = id := by simpa using List.find?_some hfind
  obtain rfl : source.id = id := hid.symm.trans hentry
  cases hf.symm.trans (ht.group?_id hmem)
  exact ⟨hlinked, hsize⟩

omit values in
/-- One Weight unit joins the subgroups of two units. -/
theorem existsUnique_joins {limits : Limits} {compiled : CompiledGraph} (hcompile : compile t limits = .ok compiled)
    {i j : GroupId} {g f : Group} {u v : Nat} (hg : t.group? i = some g) (hf : t.group? j = some f)
    (hu : u < g.units) (hv : v < f.units) : ∃! w, w ∈ compiled.graph.units ∧ w.Joins g f u v := by
  obtain ⟨hplan, hp, hdrawn⟩ := ht.compile_eq_ok hcompile
  obtain ⟨own, hown, hownUnique⟩ := (ht.placed hg).existsUnique_contains ht.cap_pos hu
  obtain ⟨from_, hfrom, hfromUnique⟩ := (ht.placed hf).existsUnique_contains ht.cap_pos hv
  obtain ⟨x, hx, hxgroup, rfl, _⟩ := ht.exists_subgroup hplan hg hown.getElem?_subunits
  obtain ⟨y, hy, hygroup, rfl, _⟩ := ht.exists_subgroup hplan hf hfrom.getElem?_subunits
  have hgid : g.id = i := (ht.placed hg).id_eq
  have hfid : f.id = j := (ht.placed hf).id_eq
  have hsource : (MeshUnit.weight x y).source = some (f.id, y.subgroup) := by
    rw [hfid, ← hygroup]
    rfl
  refine ⟨.weight x y, ⟨hdrawn.mem_units_iff.2 (.weight hx hy), rfl, hxgroup.trans hgid.symm, hown,
    y.subgroup, hsource, hfrom⟩, ?_⟩
  rintro w ⟨hw, hrole, hgroup, hcontains, fromSubgroup, hsource, hcontainsFrom⟩
  obtain ⟨a, ha, b, hb, rfl⟩ := hdrawn.exists_weight hw hrole
  obtain ⟨hbgroup, hbsubgroup⟩ := Prod.mk.inj (Option.some.inj hsource)
  rw [hp.eq_of_place_eq ha hx (hgroup.trans (hgid.trans hxgroup.symm)) (hownUnique _ hcontains),
    hp.eq_of_place_eq hb hy (hbgroup.trans (hfid.trans hygroup.symm))
      (hbsubgroup.trans (hfromUnique _ hcontainsFrom))]

end Topology.Sound

namespace PayloadSource

variable {t : Topology} {values : Array Binary64} {s : PayloadSource} {limits : Limits}

/-- The regions of the Weight unit from one subgroup to another, told from the topology as it
was before it took over weights. -/
structure WeightRegions (s : PayloadSource) (t : Topology) (values : Array Binary64) (x y : Subgroup)
    (g f : Group) (weights : Array Binary64) : Prop where
  target : t.group? x.group = some g
  source : t.group? y.group = some f
  target_units : g.subunits[x.subgroup]? = some x.units
  region_eq : s.weightsRegion (.weight x y) = .ok (Wire.encode (weightBlock weights f.units
    (f.subgroupOffset y.subgroup) (f.subgroupUnits y.subgroup)
    (g.subgroupOffset x.subgroup) (g.subgroupUnits x.subgroup)))
  core_eq : s.coreRegion (.weight x y) = .ok (s.weightCore g f y.subgroup (.weight x y)).bytes
  unlinked : y.group ∉ g.linksFrom → weights = Array.replicate (g.units * f.units) (.zero false)
  linked : ∀ u v weight, (t.withWeights values).weightAt? ⟨x.group, u, y.group, v⟩ = some weight →
    weights[u * f.units + v]? = some weight

section Loaded

variable (ht : t.Sound) (hs : s.topology = t.withWeights values)
  (hcompile : compile s.topology limits = .ok s.compiled)
include ht hs hcompile

theorem exists_weightRegions {x y : Subgroup} (hx : x ∈ s.compiled.plan.subgroups)
    (hy : y ∈ s.compiled.plan.subgroups) : ∃ g f weights, s.WeightRegions t values x y g f weights := by
  have hloaded : s.topology.Sound := hs ▸ ht.of_frame (t.frame_withWeights values).symm
  obtain ⟨hplan, _, _⟩ := hloaded.compile_eq_ok hcompile
  obtain ⟨target, htarget, htargetUnits⟩ := hloaded.exists_group_of_subgroup hplan hx
  obtain ⟨source, hsource, _⟩ := hloaded.exists_group_of_subgroup hplan hy
  obtain ⟨g, held, hg, rfl, hblocks⟩ := ht.exists_of_withWeights (hs ▸ htarget)
  obtain ⟨f, _, hf, rfl, _⟩ := ht.exists_of_withWeights (hs ▸ hsource)
  have hregion := weightsRegion_weight htarget hsource fun _ hblock => (hblocks _ _ _ hf hblock).2.ge
  have hcore := coreRegion_weight htarget hsource
  refine ⟨g, f, _, hg, hf, htargetUnits, hregion, hcore, fun hunlinked => ?_, fun u v weight hweight => ?_⟩
  · cases hheld : ({ g with weights := held } : Group).weightsFrom? y.group with
    | none => rfl
    | some block => exact absurd (hblocks _ _ _ hf hheld).1 hunlinked
  · rw [hs] at htarget hsource
    simp only [Topology.weightAt?, htarget, hsource, Option.bind_eq_bind, Option.bind_some] at hweight
    obtain ⟨block, hblock, hat⟩ := Option.bind_eq_some_iff.1 hweight
    rw [hblock]
    exact hat

end Loaded

/-- Nothing is learnt between groups that are not linked. -/
theorem rates_eq_zero {g f : Group} (hunlinked : f.id ∉ g.linksFrom) (fromSubgroup : Nat) (u : MeshUnit) :
    WeightCore.ratesOf (s.weightCore g f fromSubgroup u).bytes = List.replicate 6 0 := by
  have hlinked : g.isLinkedFrom f.id = false :=
    Bool.eq_false_iff.2 (mt List.contains_iff_mem.1 hunlinked)
  have hrate (own : Option Binary64) (common : Binary64) : (rate false own common).bytes = [0, 0] := by
    show (Value.ofRaw 0 : ShortFpReal).bytes = [0, 0]
    decide
  rw [WeightCore.ratesOf_bytes]
  simp only [weightCore, hlinked, hrate]
  rfl

namespace WeightRegions

variable {x y : Subgroup} {g f : Group} {weights : Array Binary64} (h : s.WeightRegions t values x y g f weights)
include h

/-- The Core region says how large the table of weights is. -/
theorem size_eq (hrows : f.subgroupUnits y.subgroup ≤ maxWord32) (hcolumns : g.subgroupUnits x.subgroup ≤ maxWord32) :
    WeightCore.rowsOf (s.weightCore g f y.subgroup (.weight x y)).bytes = f.subgroupUnits y.subgroup ∧
      WeightCore.columnsOf (s.weightCore g f y.subgroup (.weight x y)).bytes = g.subgroupUnits x.subgroup := by
  have hunits : g.subgroupUnits x.subgroup = x.units := by
    rw [Group.subgroupUnits, List.getD_eq_getElem?_getD, h.target_units, Option.getD_some]
  rw [WeightCore.rowsOf_bytes, WeightCore.columnsOf_bytes, hunits]
  rw [hunits] at hcolumns
  exact ⟨UInt32.toNat_ofNat_of_lt' (Nat.lt_succ_of_le hrows), UInt32.toNat_ofNat_of_lt' (Nat.lt_succ_of_le hcolumns)⟩

end WeightRegions

section Tables

variable (ht : t.Sound) (hs : s.topology = t.withWeights values)
  (hcompile : compile s.topology limits = .ok s.compiled) (hwords : ∀ g ∈ t.groups, g.units ≤ maxWord32)
  {w : MeshUnit} (hw : w ∈ s.compiled.graph.units)

include ht hwords in
theorem subgroupUnits_le {i : GroupId} {g : Group} (hg : t.group? i = some g) (subgroup : Nat) :
    g.subgroupUnits subgroup ≤ maxWord32 :=
  calc g.subgroupUnits subgroup
      ≤ g.subgroupOffset subgroup + g.subgroupUnits subgroup := Nat.le_add_left _ _
    _ ≤ g.units := (ht.placed hg).offset_add_units_le ht.cap_pos subgroup
    _ ≤ maxWord32 := hwords g (List.mem_of_getElem? hg)

include ht hs hcompile hw

theorem exists_regions_of_weight (hrole : w.role = .weight) :
    ∃ x y g f weights, w = .weight x y ∧ s.WeightRegions t values x y g f weights := by
  have hloaded : s.topology.Sound := hs ▸ ht.of_frame (t.frame_withWeights values).symm
  obtain ⟨_, _, hdrawn⟩ := hloaded.compile_eq_ok hcompile
  obtain ⟨x, hx, y, hy, rfl⟩ := hdrawn.exists_weight hw hrole
  obtain ⟨g, f, weights, hregions⟩ := exists_weightRegions ht hs hcompile hx hy
  exact ⟨x, y, g, f, weights, rfl, hregions⟩

include hwords

/-- The weight of two units stands in their row and column of the table that joins them. -/
theorem item_of_joins {g f : Group} {u v : Nat} {weight : Binary64} (hg : t.group? g.id = some g)
    (hf : t.group? f.id = some f) (hjoins : w.Joins g f u v)
    (hheld : (t.withWeights values).weightAt? ⟨g.id, u, f.id, v⟩ = some weight) :
    ∃ fromSubgroup core data, w.source = some (f.id, fromSubgroup) ∧ s.coreRegion w = .ok core ∧
      s.weightsRegion w = .ok data ∧
      Wire.item data 4 ((v - f.subgroupOffset fromSubgroup) * WeightCore.columnsOf core +
        (u - g.subgroupOffset w.subgroup)) = (Value.ofBinary64 weight : WeightValue).bytes := by
  obtain ⟨hrole, hgroup, hcontains, fromSubgroup, hsource, hcontainsFrom⟩ := hjoins
  obtain ⟨x, y, target, source, weights, rfl, hregions⟩ := exists_regions_of_weight ht hs hcompile hw hrole
  obtain ⟨hygroup, rfl⟩ := Prod.mk.inj (Option.some.inj hsource)
  have hxgroup : x.group = g.id := hgroup
  cases (hxgroup ▸ hregions.target).symm.trans hg
  cases (hygroup ▸ hregions.source).symm.trans hf
  rw [← hxgroup, ← hygroup] at hheld
  obtain ⟨_, hcolumns⟩ := hregions.size_eq (subgroupUnits_le ht hwords hf _) (subgroupUnits_le ht hwords hg _)
  refine ⟨y.subgroup, _, _, hsource, hregions.core_eq, hregions.region_eq, ?_⟩
  rw [hcolumns]
  exact item_weightBlock hcontainsFrom hcontains (hregions.linked u v weight hheld)

/-- A table is as large as the Core region says, and zero between groups that are not linked. -/
theorem table_of_weight (hlinked : t.Linked) (hrole : w.role = .weight) :
    ∃ from_ fromSubgroup core data, w.source = some (from_, fromSubgroup) ∧ s.coreRegion w = .ok core ∧
      s.weightsRegion w = .ok data ∧
      data.length = WeightCore.rowsOf core * WeightCore.columnsOf core * 4 ∧
      ((∀ l ∈ t.links, ¬(l.source = from_ ∧ l.destination = w.group)) →
        (∀ byte ∈ data, byte = 0) ∧ WeightCore.ratesOf core = List.replicate 6 0) := by
  obtain ⟨x, y, g, f, weights, rfl, hregions⟩ := exists_regions_of_weight ht hs hcompile hw hrole
  obtain ⟨hrows, hcolumns⟩ := hregions.size_eq (subgroupUnits_le ht hwords hregions.source _)
    (subgroupUnits_le ht hwords hregions.target _)
  refine ⟨y.group, y.subgroup, _, _, rfl, hregions.core_eq, hregions.region_eq, ?_, fun hnone => ?_⟩
  · rw [length_weightBlock, hrows, hcolumns]
  · have hunlinked : y.group ∉ g.linksFrom := by
      intro hmem
      obtain ⟨l, hl, hends⟩ := (hlinked.mem_linksFrom_iff hregions.target _).1 hmem
      exact hnone l hl hends
    refine ⟨?_, rates_eq_zero ((ht.placed hregions.source).id_eq ▸ hunlinked) _ _⟩
    rw [hregions.unlinked hunlinked]
    exact weightBlock_zero

end Tables

end PayloadSource

namespace Topology

variable {t loaded : Topology}

/-- Weights travel from a text to the units exactly once. For every link and every pair of units
of its groups, one position in the text is the pair's, and the weight listed there stands in the
table of the one Weight unit that joins the pair's subgroups, in the row and the column of the
pair. Tables have the size that Core regions say, and those between groups that are not linked are
zero, with rates of zero. The topology may have come about in any way, with groups of as many units
as a word can count. -/
theorem Obtained.weights_spec (ht : t.Obtained) (hwords : ∀ g ∈ t.groups, g.units ≤ maxWord32)
    {text : String} {info : Weights.Info} (hread : t.readWeights text = .ok (info, loaded))
    {limits : Limits} {s : PayloadSource} (hs : s.topology = loaded)
    (hcompile : compile loaded limits = .ok s.compiled) :
    (∀ l ∈ t.links, ∀ g f, t.group? l.destination = some g → t.group? l.source = some f →
      ∀ u < g.units, ∀ v < f.units, ∃ k weight,
        (∀ i, (Weights.fileOrder t)[i]? = some ⟨g.id, u, f.id, v⟩ ↔ i = k) ∧
        Weights.listed? text.toList info k = some weight ∧
        (∃! w, w ∈ s.compiled.graph.units ∧ w.Joins g f u v) ∧
        ∀ w ∈ s.compiled.graph.units, w.Joins g f u v → ∃ fromSubgroup core data,
          w.source = some (f.id, fromSubgroup) ∧ s.coreRegion w = .ok core ∧ s.weightsRegion w = .ok data ∧
          Wire.item data 4 ((v - f.subgroupOffset fromSubgroup) * WeightCore.columnsOf core +
            (u - g.subgroupOffset w.subgroup)) = (Value.ofBinary64 weight : WeightValue).bytes) ∧
    ∀ w ∈ s.compiled.graph.units, w.role = .weight → ∃ from_ fromSubgroup core data,
      w.source = some (from_, fromSubgroup) ∧ s.coreRegion w = .ok core ∧ s.weightsRegion w = .ok data ∧
      data.length = WeightCore.rowsOf core * WeightCore.columnsOf core * 4 ∧
      ((∀ l ∈ t.links, ¬(l.source = from_ ∧ l.destination = w.group)) →
        (∀ byte ∈ data, byte = 0) ∧ WeightCore.ratesOf core = List.replicate 6 0) := by
  obtain ⟨⟨_, values⟩, htext, hload⟩ := bind_eq_ok_iff.1 hread
  cases hload
  obtain ⟨hsize, hlisted⟩ := Weights.readText_eq_ok htext
  have hframe : compile t limits = .ok s.compiled :=
    (compile_of_frame (t.frame_withWeights values) limits).symm.trans hcompile
  rw [← hs] at hcompile
  refine ⟨?_, fun w hw hrole => table_of_weight ht.sound hs hcompile hwords hw ht.linked hrole⟩
  intro l hl g f hg hf u hu v hv
  have hown : t.group? g.id = some g := ht.sound.group?_id (List.mem_of_getElem? hg)
  have hfrom : t.group? f.id = some f := ht.sound.group?_id (List.mem_of_getElem? hf)
  have hlink : f.id ∈ g.linksFrom :=
    (ht.linked.mem_linksFrom_iff hg _).2 ⟨l, hl, (ht.sound.placed hf).id_eq.symm, rfl⟩
  have hmem : (⟨g.id, u, f.id, v⟩ : Weights.Pair) ∈ Weights.fileOrder t :=
    (Weights.mem_fileOrder_iff ht.sound).2 ⟨g, f, hown, hfrom, hlink, hu, hv⟩
  obtain ⟨k, hk⟩ := List.mem_iff_getElem?.1 hmem
  have hlt : k < (Weights.fileOrder t).length := (List.getElem?_eq_some_iff.1 hk).1
  obtain ⟨weight, hvalue, hheld⟩ := weightAt?_withWeights ht.sound hsize hk
  refine ⟨k, weight, fun i => ⟨fun hi => ?_, fun hi => hi ▸ hk⟩, hlisted k weight hvalue,
    ht.sound.existsUnique_joins hframe hg hf hu hv,
    fun w hw hjoins => item_of_joins ht.sound hs hcompile hwords hw hown hfrom hjoins hheld⟩
  exact ((List.getElem?_inj hlt (Weights.nodup_fileOrder ht.sound)).1 (hk.trans hi.symm)).symm

/-- The third weight of a text is for the last unit of an output group that is split in two. -/
theorem weights_spec_output : ∃ t grown id info loaded g bias compiled, make 2 = .ok t ∧
    t.addGroup 3 (Roles.ofList [.output]) none none none = .ok (id, grown) ∧
    grown.readWeights "1431655766\n3\n1\n7\n0.5\n-1\n0.25\n" = .ok (info, loaded) ∧
    grown.group? 1 = some g ∧ grown.group? 0 = some bias ∧ compile loaded {} = .ok compiled ∧
    ∃ k weight, (Weights.fileOrder grown)[k]? = some ⟨g.id, 2, bias.id, 0⟩ ∧
      Weights.listed? "1431655766\n3\n1\n7\n0.5\n-1\n0.25\n".toList info k = some weight ∧
      ∃! w, w ∈ compiled.graph.units ∧ w.Joins g bias 2 0 := by
  obtain ⟨t, grown, id, info, loaded, g, bias, p, hmake, hadd, hread, hg, hbias, hunits, hplan, hlink, hu, hv⟩ :
      ∃ t grown id info loaded g bias p, make 2 = .ok t ∧
        t.addGroup 3 (Roles.ofList [.output]) none none none = .ok (id, grown) ∧
        grown.readWeights "1431655766\n3\n1\n7\n0.5\n-1\n0.25\n" = .ok (info, loaded) ∧
        grown.group? 1 = some g ∧ grown.group? 0 = some bias ∧ (∀ g ∈ grown.groups, g.units ≤ maxWord32) ∧
        Plan.make loaded {} = .ok p ∧ ⟨0, 0, 1, "Bias-g1"⟩ ∈ grown.links ∧ 2 < g.units ∧ 0 < bias.units :=
    ⟨_, _, _, _, _, _, _, _, rfl, rfl, rfl, rfl, rfl, by decide, rfl, by decide, by decide, by decide⟩
  have ht : Obtained grown := .addGroup (.make hmake) hadd
  obtain ⟨⟨_, values⟩, _, hload⟩ := bind_eq_ok_iff.1 hread
  have hsound : loaded.Sound := by
    cases hload
    exact ht.sound.of_frame (grown.frame_withWeights values).symm
  obtain ⟨graph, hcompile, _⟩ := hsound.compile_eq hplan
  let source : PayloadSource :=
    ⟨loaded, ⟨p, graph, p.report graph⟩, {}, {}, .ofExamples ⟨none, none, none⟩ [], .empty⟩
  obtain ⟨hpairs, _⟩ := Obtained.weights_spec ht hunits hread (s := source) rfl hcompile
  obtain ⟨k, weight, hk, hlisted, hunit, _⟩ := hpairs _ hlink g bias hg hbias 2 hu 0 hv
  exact ⟨t, grown, id, info, loaded, g, bias, _, hmake, hadd, hread, hg, hbias, hcompile,
    k, weight, (hk k).2 rfl, hlisted, hunit⟩

end Topology

end PerceptronMesh

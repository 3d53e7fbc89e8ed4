import PerceptronMesh.Proofs.Compile.Audit
import PerceptronMesh.Proofs.Payload.Weights
import PerceptronMesh.Proofs.Placement.Routing
import PerceptronMesh.Proofs.Topology.Filled

/-!
Payloads can always be built: for the graph of a sound topology whose groups hold data of
the right shapes, and with keys for all partitions, no region of any unit fails.
-/

namespace PerceptronMesh

/-- A map of results succeeds if each of them does. -/
theorem mapM_eq_ok {α β : Type} {f : α → Result β} {value : α → β} {items : List α}
    (h : ∀ item ∈ items, f item = .ok (value item)) : items.mapM f = .ok (items.map value) := by
  induction items with
  | nil => rfl
  | cons item rest ih =>
    rw [List.mapM_cons, h item List.mem_cons_self,
      ih fun other hother => h other (List.mem_cons_of_mem _ hother)]
    rfl

/-- Each of them does if the map succeeds. -/
theorem exists_of_mapM_eq_ok {α β : Type} {f : α → Result β} {items : List α} {values : List β}
    (h : items.mapM f = .ok values) {item : α} (hitem : item ∈ items) : ∃ value, f item = .ok value := by
  induction items generalizing values with
  | nil => cases hitem
  | cons first rest ih =>
    rw [List.mapM_cons] at h
    obtain ⟨value, hvalue, h⟩ := bind_eq_ok_iff.1 h
    obtain ⟨others, hothers, _⟩ := bind_eq_ok_iff.1 h
    rcases List.mem_cons.1 hitem with rfl | hmem
    · exact ⟨value, hvalue⟩
    · exact ih hothers hmem

namespace PayloadSource

/-- All payloads are built if each of them is. -/
theorem buildAll_of_build {s : PayloadSource} {stage : StageDescriptor}
    (h : ∀ u ∈ s.compiled.graph.units.toList, ∃ p, s.build u stage = .ok p) : ∃ payload : MeshUnit → UnitPayload,
      (∀ u ∈ s.compiled.graph.units.toList, s.build u stage = .ok (payload u)) ∧
        s.buildAll stage = .ok (s.compiled.graph.units.toList.map payload) := by
  let payload (u : MeshUnit) : UnitPayload := (s.build u stage).toOption.getD ⟨u.id, u.role, []⟩
  have hbuild : ∀ u ∈ s.compiled.graph.units.toList, s.build u stage = .ok (payload u) := by
    intro u hu
    obtain ⟨p, hp⟩ := h u hu
    simp only [payload, hp, Except.toOption, Option.getD_some]
  exact ⟨payload, hbuild, mapM_eq_ok hbuild⟩

/-- What payloads are built from fits together. -/
structure Sound (s : PayloadSource) : Prop where
  topology : s.topology.Sound
  filled : s.topology.Filled
  coherent : s.compiled.plan.Coherent
  drawn : s.compiled.plan.Drawn s.compiled.graph
  groups_eq : s.compiled.plan.groupCount = s.topology.groups.length
  routed : s.routing.Covers s.compiled.graph

theorem sound_of_compile {s : PayloadSource} {limits : Limits} (ht : s.topology.Sound)
    (hfilled : s.topology.Filled) (hcompile : compile s.topology limits = .ok s.compiled)
    (hrouted : s.routing.Covers s.compiled.graph) : s.Sound := by
  obtain ⟨hplan, hcoherent, hdrawn⟩ := ht.compile_eq_ok hcompile
  refine ⟨ht, hfilled, hcoherent, hdrawn, ?_, hrouted⟩
  obtain ⟨_, _, hfields⟩ := Plan.make_eq_ok_iff.1 hplan
  simp [hfields, Plan.groupCount]

namespace Sound

variable {s : PayloadSource} (hs : s.Sound) {u : MeshUnit} {x : Subgroup}
include hs

theorem exists_group (hx : x ∈ s.compiled.plan.subgroups) :
    ∃ g, s.topology.group x.group = .ok g ∧ s.topology.groups[x.group]? = some g := by
  have hlt : x.group < s.topology.groups.length := hs.groups_eq ▸ hs.coherent.group_lt hx
  have hget := List.getElem?_eq_getElem hlt
  exact ⟨_, Topology.group_eq_ok_iff.2 hget, hget⟩

theorem nodup_ids : (s.compiled.graph.units.toList.map (·.id)).Nodup := by
  rw [hs.drawn.units_eq]
  exact hs.coherent.nodup_ids

/-- There are units, those of the bias group at least. -/
theorem exists_unit : ∃ u, u ∈ s.compiled.graph.units.toList := by
  obtain ⟨first, hfirst, _⟩ := hs.coherent.exists_first
  exact ⟨.input first, Array.mem_toList_iff.2 (hs.drawn.mem_units_iff.2 (.input hfirst))⟩

theorem exists_coreRegion (hu : u ∈ s.compiled.graph.units) : ∃ core, s.coreRegion u = .ok core := by
  unfold coreRegion
  cases hs.drawn.mem_units_iff.1 hu with
  | input hx | threshold hx | sum hx _ =>
    obtain ⟨g, hg, _⟩ := hs.exists_group hx
    exact ⟨_, bind_eq_ok_iff.2 ⟨g, hg, rfl⟩⟩
  | @weight x y hx hy =>
    obtain ⟨g, hg, _⟩ := hs.exists_group hx
    obtain ⟨source, hsource, _⟩ := hs.exists_group hy
    exact ⟨_, bind_eq_ok_iff.2 ⟨g, hg, bind_eq_ok_iff.2
      ⟨(y.group, y.subgroup), rfl, bind_eq_ok_iff.2 ⟨source, hsource, rfl⟩⟩⟩⟩

/-- A block of weights is as long as its region needs. -/
theorem exists_weightsRegion {y : Subgroup} (hx : x ∈ s.compiled.plan.subgroups)
    (hy : y ∈ s.compiled.plan.subgroups) : ∃ data, s.weightsRegion (.weight x y) = .ok data := by
  obtain ⟨target, _, hget⟩ := hs.exists_group hx
  obtain ⟨source, _, hgetSource⟩ := hs.exists_group hy
  have hfilled := hs.filled target (List.mem_of_getElem? hget)
  exact ⟨_, weightsRegion_weight hget hgetSource fun held hheld => (hfilled.weightsFrom hheld hgetSource).ge⟩

omit hs in
/-- Values come in whole rows. -/
theorem exists_optionalRegion {g : Group} {values : Array UnitValue} (region : Region) (hpos : 0 < g.units)
    (hwhole : g.units ∣ values.size) (u : MeshUnit) : ∃ own, optionalRegion region g u values = .ok own := by
  have hrows : ¬(g.units = 0 ∨ values.size % g.units ≠ 0) := by
    rintro (hzero | hragged)
    · omega
    · exact hragged (Nat.mod_eq_zero_of_dvd hwhole)
  unfold optionalRegion valuesRegion
  rw [if_neg hrows]
  by_cases hnone : values.isEmpty
  · rw [if_pos hnone]
    exact ⟨_, rfl⟩
  · rw [if_neg hnone]
    exact ⟨_, rfl⟩

theorem exists_ownRegions (hu : u ∈ s.compiled.graph.units) : ∃ own, s.ownRegions u = .ok own := by
  cases hs.drawn.mem_units_iff.1 hu with
  | @weight x y hx hy =>
    obtain ⟨data, hdata⟩ := hs.exists_weightsRegion hx hy
    exact ⟨_, (ownRegions_of_weight rfl).2 ⟨data, hdata, rfl⟩⟩
  | sum hx _ =>
    obtain ⟨g, hg, _⟩ := hs.exists_group hx
    exact ⟨_, bind_eq_ok_iff.2 ⟨g, hg, rfl⟩⟩
  | @input x hx =>
    obtain ⟨g, hg, hget⟩ := hs.exists_group hx
    have hfilled := hs.filled g (List.mem_of_getElem? hget)
    have hpos := (hs.topology.placed hget).units_pos
    obtain ⟨inputs, hinputs⟩ := exists_optionalRegion .inputs hpos hfilled.inputs (.input x)
    exact ⟨_, bind_eq_ok_iff.2 ⟨g, hg, bind_eq_ok_iff.2 ⟨inputs, hinputs, rfl⟩⟩⟩
  | @threshold x hx =>
    obtain ⟨g, hg, hget⟩ := hs.exists_group hx
    have hfilled := hs.filled g (List.mem_of_getElem? hget)
    have hpos := (hs.topology.placed hget).units_pos
    obtain ⟨inputs, hinputs⟩ := exists_optionalRegion .inputs hpos hfilled.inputs (.threshold x)
    obtain ⟨targets, htargets⟩ :=
      exists_optionalRegion .targets hpos hfilled.targets (.threshold x)
    exact ⟨_, bind_eq_ok_iff.2 ⟨g, hg, bind_eq_ok_iff.2 ⟨inputs, hinputs,
      bind_eq_ok_iff.2 ⟨targets, htargets, rfl⟩⟩⟩⟩

/-- Every unit's payload can be built for every stage. -/
theorem exists_build (hu : u ∈ s.compiled.graph.units) (stage : StageDescriptor) :
    ∃ p, s.build u stage = .ok p := by
  obtain ⟨core, hcore⟩ := hs.exists_coreRegion hu
  obtain ⟨own, hown⟩ := hs.exists_ownRegions hu
  obtain ⟨keys, hkeys⟩ := hs.routed.exists_keysFor hu
  exact ⟨_, build_eq_ok_iff.2 ⟨core, own, keys, hcore, hown, hkeys, rfl⟩⟩

/-- The payloads of all units, by the unit they are for. -/
theorem exists_buildAll (stage : StageDescriptor) : ∃ payload : MeshUnit → UnitPayload,
    (∀ u ∈ s.compiled.graph.units.toList, s.build u stage = .ok (payload u)) ∧
      s.buildAll stage = .ok (s.compiled.graph.units.toList.map payload) :=
  buildAll_of_build fun _ hu => hs.exists_build (Array.mem_toList_iff.1 hu) stage

end Sound

end PayloadSource

end PerceptronMesh

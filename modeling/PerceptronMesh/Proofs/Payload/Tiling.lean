import PerceptronMesh.Proofs.Example.Given
import PerceptronMesh.Proofs.Payload.Threshold
import PerceptronMesh.Proofs.Payload.Total
import PerceptronMesh.Proofs.Topology.Outputs

/-!
Values in the payloads of all units. A row of a group's values is cut at the bounds of the
subgroups, so that the parts of the group's units, put together in order, are the whole row.
-/

namespace PerceptronMesh

open Wire Fixed Numeric

/-- Values as units read them. -/
def activations (values : List UnitValue) : List UInt8 :=
  encode (values.map fun value => .fixed .activation (.ofOption value))

theorem length_activations (values : List UnitValue) : (activations values).length = values.length * 4 := by
  have hwidth : ∀ field ∈ values.map fun value => Field.fixed .activation (.ofOption value), field.width = 4 := by
    simp [Field.width, Format.width]
  rw [activations, length_encode_of_width hwidth, List.length_map]

theorem activations_flatMap {α : Type} (items : List α) (f : α → List UnitValue) :
    activations (items.flatMap f) = items.flatMap fun item => activations (f item) := by
  simp only [activations, encode, List.map_flatMap, List.flatMap_assoc]

theorem Binding.length_rowAt_le (column : Array UnitValue) (units row : Nat) :
    (rowAt column units row).length ≤ units := List.length_take_le _ _

namespace Group

variable {g : Group} {u : MeshUnit} {values : Array UnitValue} {row : Nat}

/-- Of a row of the group's values the part that belongs to a unit. -/
def partOfRow (g : Group) (u : MeshUnit) (values : List UnitValue) : List UnitValue :=
  (values.drop (g.subgroupOffset u.subgroup)).take u.units

theorem length_rowAt (hrow : row < values.size / g.units) : (Binding.rowAt values g.units row).length = g.units := by
  have hlast := row_end_le hrow
  rw [Binding.rowAt, List.length_take, List.length_drop, Array.length_toList]
  omega

theorem length_partOfRow (hfit : g.subgroupOffset u.subgroup + u.units ≤ g.units)
    (hrow : row < values.size / g.units) :
    (g.partOfRow u (Binding.rowAt values g.units row)).length = u.units := by
  rw [partOfRow, List.length_take, List.length_drop, length_rowAt hrow]
  omega

end Group

/-- The region that a side's values are put in. -/
def Side.region : Side → Region
  | .input => .inputs
  | .target => .targets

namespace UnitRole

/-- Sides whose values units of a role have. -/
def sides : UnitRole → List Side
  | .input => [.input]
  | .threshold => [.input, .target]
  | .weight | .sum => []

/-- Regions that units of a role have whatever the values are. -/
def ownRegions : UnitRole → List Region
  | .weight => [.weights]
  | .input | .threshold => [.events]
  | .sum => []

end UnitRole

/-- Units of a role that a group has, in the order of the graph. -/
def Graph.unitsOf (graph : Graph) (role : UnitRole) (group : GroupId) : List MeshUnit :=
  (graph.unitsWithRole role).filter (·.group == group)

theorem Graph.mem_unitsOf {graph : Graph} {role : UnitRole} {group : GroupId} {u : MeshUnit} :
    u ∈ graph.unitsOf role group ↔ u ∈ graph.units ∧ u.role = role ∧ u.group = group := by
  rw [unitsOf, unitsWithRole, List.mem_filter, List.mem_filter, Array.mem_toList_iff, beq_iff_eq, beq_iff_eq, and_assoc]

/-- Subgroups in order, each with its number of units. -/
def Group.places (g : Group) : List (Nat × Nat) := (List.range g.subgroups).map fun k => (k, g.subgroupUnits k)

/-- The parts of a row that go to a group's units are the row. -/
theorem Group.flatMap_partOfRow {g : Group} {units : List MeshUnit}
    (hplaces : (units.map fun u => (u.subgroup, u.units)) = g.places) (row : List UnitValue) :
    units.flatMap (g.partOfRow · row) = row.take (g.subunits.sum) :=
  calc units.flatMap (g.partOfRow · row)
      = (units.map fun u => (u.subgroup, u.units)).flatMap
          fun place => (row.drop (g.subgroupOffset place.1)).take place.2 := by
        rw [List.flatMap_map]
        rfl
    _ = (List.range g.subgroups).flatMap fun k => (row.drop (g.subgroupOffset k)).take (g.subgroupUnits k) := by
        rw [hplaces, places, List.flatMap_map]
    _ = row.take (g.subunits.sum) := by
        rw [← List.take_length (l := g.subunits)]
        exact flatMap_parts g.subunits row g.subunits.length

/-- A role that values are for has a unit for every subgroup. -/
theorem Plan.exists_unit_of_sides (p : Plan) {role : UnitRole} (hrole : role.sides ≠ []) :
    ∃ unit : Subgroup → MeshUnit, p.units.filter (·.role == role) = p.subgroups.map unit ∧
      ∀ x, (unit x).group = x.group ∧ (unit x).subgroup = x.subgroup ∧ (unit x).units = x.units := by
  cases role with
  | weight | sum => exact absurd rfl hrole
  | input =>
    exact ⟨.input, filter_units_role (fun _ => rfl) (by decide) (by decide), fun _ => ⟨rfl, rfl, rfl⟩⟩
  | threshold =>
    exact ⟨.threshold, filter_units_role (fun _ => rfl) (by decide) (by decide), fun _ => ⟨rfl, rfl, rfl⟩⟩

theorem Topology.Sound.filter_id {t : Topology} (ht : t.Sound) {g : Group} (hg : g ∈ t.groups) :
    t.groups.filter (·.id == g.id) = [g] := by
  have hsame : ∀ other ∈ t.groups, (other.id == g.id) = (other == g) := by
    intro other hother
    rw [Bool.eq_iff_iff, beq_iff_eq, beq_iff_eq]
    refine ⟨fun hid => ?_, fun heq => heq ▸ rfl⟩
    have hfound := ht.group?_id hother
    rw [hid, ht.group?_id hg] at hfound
    exact (Option.some.inj hfound).symm
  rw [List.filter_congr hsame, List.filter_beq, List.count_eq_one_of_mem (ht.nodup_id.of_map _) hg]
  rfl

/-- The units of a role that values are for stand for the group's subgroups in order. -/
theorem Topology.Sound.map_place_unitsOf {t : Topology} (ht : t.Sound) {limits : Limits} {p : Plan}
    (hplan : Plan.make t limits = .ok p) {graph : Graph} (hdrawn : p.Drawn graph) {g : Group} (hg : g ∈ t.groups)
    {role : UnitRole} (hrole : role.sides ≠ []) :
    ((graph.unitsOf role g.id).map fun u => (u.subgroup, u.units)) = g.places := by
  obtain ⟨unit, hunits, hunit⟩ := p.exists_unit_of_sides hrole
  have hsubgroups : p.subgroups = enumerateSubgroups t.groups 0 := by
    rw [(Plan.make_eq_ok_iff.1 hplan).2.2]
  let pick (x : Subgroup) : Option (Nat × Nat) := if x.group == g.id then some (x.subgroup, x.units) else none
  calc ((graph.unitsOf role g.id).map fun u => (u.subgroup, u.units))
      = ((p.subgroups.map unit).filter (·.group == g.id)).map fun u => (u.subgroup, u.units) := by
        rw [Graph.unitsOf, Graph.unitsWithRole, hdrawn.units_eq, hunits]
    _ = (enumerateSubgroups t.groups 0).filterMap pick := by
        rw [← hsubgroups, List.filter_map, List.map_map, ← List.filterMap_eq_filter, List.map_filterMap]
        refine List.filterMap_congr fun x _ => ?_
        obtain ⟨hgroup, hsubgroup, hown⟩ := hunit x
        by_cases hsame : x.group = g.id <;> simp [pick, Option.guard, hgroup, hsubgroup, hown, hsame]
    _ = (t.groups.filter (·.id == g.id)).flatMap Group.places := by
        refine filterMap_enumerateSubgroups 0 fun other _ x hgroup hx => ?_
        rw [Group.subgroupUnits, List.getD_eq_getElem?_getD, hx]
        simp only [pick, hgroup]
        rfl
    _ = g.places := by
        rw [ht.filter_id hg, List.flatMap_singleton]

/-- Regions of the units of a group, for a set with a number of events. -/
def Group.regionsOf (g : Group) (events : Nat) (role : UnitRole) : List Region :=
  [.network, .core, .exampleSet, .examples] ++ role.ownRegions ++
    (role.sides.filter fun side => g.isOn side ∧ 0 < events).map Side.region ++ [.routing, .stage]

namespace PayloadSource

variable {s : PayloadSource} {g : Group} {u : MeshUnit} {values : Array UnitValue}

/-- The unit's part of a group's values, row by row. -/
theorem encode_partOf (hfit : g.subgroupOffset u.subgroup + u.units ≤ g.units) :
    encode ((partOf g u.subgroup u.units values).map fun v => .fixed .activation v) =
      (List.range (values.size / g.units)).flatMap fun row =>
        activations (g.partOfRow u (Binding.rowAt values g.units row)) := by
  rw [partOf, List.map_flatMap, encode, List.flatMap_assoc]
  refine List.flatMap_congr fun row hrow => ?_
  have hlast := row_end_le (List.mem_range.1 hrow)
  have hpart : g.partOfRow u (Binding.rowAt values g.units row) =
      (List.range u.units).map fun c => values.getD (row * g.units + g.subgroupOffset u.subgroup + c) none := by
    rw [← toList_extract (by omega), Array.toList_extract, List.extract_eq_take_drop, Group.partOfRow, Binding.rowAt,
      List.drop_take, List.drop_drop, List.take_take]
    congr 1
    omega
  rw [hpart, activations, List.map_map, List.map_map]
  rfl

/-- The bytes of a row in a unit's region are its part of the row. A row that the group does not have is empty. -/
theorem item_encode_partOf (hfit : g.subgroupOffset u.subgroup + u.units ≤ g.units) (hwhole : g.units ∣ values.size)
    (row : Nat) :
    item (encode ((partOf g u.subgroup u.units values).map fun v => .fixed .activation v)) (u.units * 4) row =
      activations (g.partOfRow u (Binding.rowAt values g.units row)) := by
  have hwidth : ∀ row ∈ List.range (values.size / g.units),
      (activations (g.partOfRow u (Binding.rowAt values g.units row))).length = u.units * 4 := by
    intro row hrow
    rw [length_activations, Group.length_partOfRow hfit (List.mem_range.1 hrow)]
  rw [encode_partOf hfit]
  by_cases hrow : row < values.size / g.units
  · exact item_flatMap hwidth (List.getElem?_range hrow)
  · have hbeyond : values.size ≤ row * g.units :=
      calc values.size = values.size / g.units * g.units := (Nat.div_mul_cancel hwhole).symm
        _ ≤ row * g.units := Nat.mul_le_mul_right _ (Nat.not_lt.1 hrow)
    have hnone : Binding.rowAt values g.units row = [] := by
      rw [Binding.rowAt, List.drop_eq_nil_of_le (by simpa using hbeyond), List.take_nil]
    have hlength := length_flatMap_of_width hwidth
    rw [List.length_range] at hlength
    rw [hnone, item, List.drop_eq_nil_of_le (hlength.trans_le (Nat.mul_le_mul_right _ (Nat.not_lt.1 hrow))),
      List.take_nil, Group.partOfRow, List.drop_nil, List.take_nil]
    rfl

theorem length_encode_partOf (g : Group) (subgroup units : Nat) (values : Array UnitValue) :
    (encode ((partOf g subgroup units values).map fun v => .fixed .activation v)).length =
      values.size / g.units * units * 4 := by
  have hwidth : ∀ field ∈ (partOf g subgroup units values).map fun v => Field.fixed .activation v,
      field.width = 4 := by
    simp [Field.width, Format.width]
  rw [length_encode_of_width hwidth, List.length_map, partOf, length_rows]

section Regions

variable {side : Side} {own : List (Region × List UInt8)} {core : List UInt8} {keys : RoutingKeys}
  {stage : StageDescriptor}

theorem map_fst_optionalRegion {region : Region} (h : optionalRegion region g u values = .ok own) :
    own.map (·.1) = if values.isEmpty then [] else [region] := by
  unfold optionalRegion at h
  by_cases hempty : values.isEmpty
  · rw [if_pos hempty] at h ⊢
    cases h
    rfl
  · rw [if_neg hempty] at h ⊢
    cases hvalues : valuesRegion g u values with
    | error e =>
      rw [hvalues] at h
      cases h
    | ok data =>
      rw [hvalues] at h
      cases h
      rfl

theorem map_fst_roleRegions (h : s.roleRegions g u = .ok own) : own.map (·.1) =
    u.role.ownRegions ++ (u.role.sides.filter fun side => !(g.valuesOn side).isEmpty).map Side.region := by
  obtain ⟨hrole, data, _, rfl⟩ | ⟨hrole, rfl⟩ | ⟨hrole, inputs, hinputs, rfl⟩ |
      ⟨hrole, inputs, targets, hinputs, htargets, rfl⟩ := roleRegions_cases h
  · rw [hrole]
    rfl
  · rw [hrole]
    rfl
  · rw [hrole, List.map_cons, map_fst_optionalRegion hinputs]
    cases hnone : g.inputs.isEmpty <;>
      simp [UnitRole.ownRegions, UnitRole.sides, Group.valuesOn, hnone, Side.region]
  · rw [hrole, List.map_append, List.map_cons, map_fst_optionalRegion hinputs, map_fst_optionalRegion htargets]
    cases hnone : g.inputs.isEmpty <;> cases hnoneTarget : g.targets.isEmpty <;>
      simp [UnitRole.ownRegions, UnitRole.sides, Group.valuesOn, hnone, hnoneTarget, Side.region]

/-- A region of values is one of the unit's own. -/
theorem lookup_layout (side : Side) :
    (s.layout core own keys stage).lookup side.region = own.lookup side.region := by
  rw [layout, List.lookup_append, List.lookup_append]
  cases side <;> exact Option.or_none

theorem lookup_of_roleRegions (h : s.roleRegions g u = .ok own) (hside : side ∈ u.role.sides) :
    ∃ part, optionalRegion side.region g u (g.valuesOn side) = .ok part ∧
      own.lookup side.region = part.lookup side.region := by
  obtain ⟨hrole, _⟩ | ⟨hrole, _⟩ | ⟨hrole, inputs, hinputs, rfl⟩ |
      ⟨hrole, inputs, targets, hinputs, htargets, rfl⟩ := roleRegions_cases h
  all_goals rw [hrole] at hside
  · cases hside
  · cases hside
  · cases List.mem_singleton.1 hside
    exact ⟨inputs, hinputs, rfl⟩
  · cases side with
    | input =>
      refine ⟨inputs, hinputs, ?_⟩
      obtain rfl | ⟨data, rfl⟩ := optionalRegion_eq_ok htargets
      · rw [List.append_nil]
        rfl
      · obtain rfl | ⟨row, rfl⟩ := optionalRegion_eq_ok hinputs <;> rfl
    | target =>
      refine ⟨targets, htargets, ?_⟩
      obtain rfl | ⟨data, rfl⟩ := optionalRegion_eq_ok hinputs <;> rfl

end Regions

/-- Built payloads are those of the units. -/
theorem build_of_buildAll {stage : StageDescriptor} {payloads : List UnitPayload}
    (h : s.buildAll stage = .ok payloads) : ∃ payload : MeshUnit → UnitPayload,
      (∀ u ∈ s.compiled.graph.units.toList, s.build u stage = .ok (payload u)) ∧
        payloads = s.compiled.graph.units.toList.map payload := by
  obtain ⟨payload, hbuild, hall⟩ := buildAll_of_build fun _ hu => exists_of_mapM_eq_ok h hu
  exact ⟨payload, hbuild, Except.ok.inj (h.symm.trans hall)⟩

section Build

variable {stage : StageDescriptor} {p : UnitPayload} {side : Side}
variable (hg : s.topology.group? u.group = some g) (h : s.build u stage = .ok p)
include hg h

theorem layout_of_build : ∃ core own keys, s.roleRegions g u = .ok own ∧
    p = ⟨u.id, u.role, s.layout core own keys stage⟩ := by
  obtain ⟨core, own, keys, _, hown, _, rfl⟩ := build_eq_ok_iff.1 h
  obtain ⟨_, hother, hregions⟩ := bind_eq_ok_iff.1 hown
  cases (Topology.group_eq_ok_iff.2 hg).symm.trans hother
  exact ⟨core, own, keys, hregions, rfl⟩

theorem regionList_of_build : p.regionList = [.network, .core, .exampleSet, .examples] ++ (u.role.ownRegions ++
    (u.role.sides.filter fun side => !(g.valuesOn side).isEmpty).map Side.region) ++ [.routing, .stage] := by
  obtain ⟨core, own, keys, hregions, rfl⟩ := layout_of_build hg h
  rw [UnitPayload.regionList, layout, List.map_append, List.map_append, map_fst_roleRegions hregions]
  rfl

theorem region?_of_build (hside : side ∈ u.role.sides) : ∃ part,
    optionalRegion side.region g u (g.valuesOn side) = .ok part ∧
      p.region? side.region = part.lookup side.region := by
  obtain ⟨core, own, keys, hregions, rfl⟩ := layout_of_build hg h
  obtain ⟨part, hpart, hlookup⟩ := lookup_of_roleRegions hregions hside
  exact ⟨part, hpart, (lookup_layout side).trans hlookup⟩

theorem values_of_build (hfit : g.subgroupOffset u.subgroup + u.units ≤ g.units) (hside : side ∈ u.role.sides) :
    (p.region? side.region).getD [] =
      encode ((partOf g u.subgroup u.units (g.valuesOn side)).map fun v => .fixed .activation v) := by
  obtain ⟨part, hpart, hlookup⟩ := region?_of_build hg h hside
  rw [hlookup]
  exact optionalRegion_values hfit hpart

theorem item_of_build (hfit : g.subgroupOffset u.subgroup + u.units ≤ g.units) (hside : side ∈ u.role.sides)
    (hwhole : g.units ∣ (g.valuesOn side).size) (row : Nat) :
    item ((p.region? side.region).getD []) (u.units * 4) row =
      activations (g.partOfRow u (Binding.rowAt (g.valuesOn side) g.units row)) := by
  rw [values_of_build hg h hfit hside]
  exact item_encode_partOf hfit hwhole row

end Build

/-- Payloads that hold the values of all groups, for a set with a number of events. -/
structure Tiled (s : PayloadSource) (events : Nat) (payload : MeshUnit → UnitPayload) : Prop where
  /-- A group that takes values on a side has a row for each event. -/
  rows : ∀ g ∈ s.topology.groups, ∀ side, g.isOn side = true → (g.valuesOn side).size = events * g.units
  /-- A unit's part does not reach beyond the row. -/
  within : ∀ u ∈ s.compiled.graph.units, ∀ g, s.topology.group? u.group = some g →
    g.subgroupOffset u.subgroup + u.units ≤ g.units
  unit : ∀ u ∈ s.compiled.graph.units, (payload u).unit = u.id ∧ (payload u).role = u.role
  /-- There are no regions besides those of the role, and those for values where a set gives some. -/
  regions : ∀ u ∈ s.compiled.graph.units, ∀ g, s.topology.group? u.group = some g →
    (payload u).regionList = g.regionsOf events u.role
  length : ∀ u ∈ s.compiled.graph.units, ∀ side ∈ u.role.sides, ∀ data,
    (payload u).region? side.region = some data → data.length = events * u.units * 4
  in_order : ∀ g ∈ s.topology.groups, ∀ role : UnitRole, role.sides ≠ [] →
    ((s.compiled.graph.unitsOf role g.id).map fun u => (u.subgroup, u.units)) = g.places
  /-- What the units of one role have of a row is the row. -/
  tiles : ∀ g ∈ s.topology.groups, ∀ role : UnitRole, ∀ side ∈ role.sides, ∀ row,
    ((s.compiled.graph.unitsOf role g.id).flatMap fun u =>
      item (((payload u).region? side.region).getD []) (u.units * 4) row) =
        activations (Binding.rowAt (g.valuesOn side) g.units row)

end PayloadSource

namespace Topology

variable {t : Topology} {s : PayloadSource} {limits : Limits}

theorem Sound.exists_range_of_unit (ht : t.Sound) {p : Plan} (hplan : Plan.make t limits = .ok p) {u : MeshUnit}
    (hu : p.HasUnit u) : ∃ g, t.group? u.group = some g ∧ g.subgroupOffset u.subgroup + u.units ≤ g.units := by
  cases hu with
  | input hx | threshold hx | sum hx _ | weight hx _ =>
    obtain ⟨g, hg, _, _, hfit, _⟩ := ht.exists_range_of_subgroup hplan hx
    exact ⟨g, hg, hfit⟩

theorem Filled.whole (h : t.Filled) {g : Group} (hg : g ∈ t.groups) (side : Side) :
    g.units ∣ (g.valuesOn side).size := by
  cases side with
  | input => exact (h g hg).inputs
  | target => exact (h g hg).targets

namespace Valued

variable {events : Nat} (hvalued : s.topology.Valued (some events)) {g : Group} {u : MeshUnit}
  {stage : StageDescriptor} {p : UnitPayload}
include hvalued

theorem regionList_eq (hpos : 0 < g.units) (hg : s.topology.group? u.group = some g)
    (h : s.build u stage = .ok p) : p.regionList = g.regionsOf events u.role := by
  have hgiven : (fun side => !(g.valuesOn side).isEmpty) = fun side => decide (g.isOn side = true ∧ 0 < events) := by
    funext side
    rw [Bool.eq_iff_iff, Bool.not_eq_true', ← Bool.not_eq_true, decide_eq_true_iff,
      hvalued.isEmpty_iff (List.mem_of_getElem? hg) hpos, not_not]
  rw [PayloadSource.regionList_of_build hg h, hgiven, Group.regionsOf, List.append_assoc _ u.role.ownRegions]

theorem length_region (hpos : 0 < g.units) (hg : s.topology.group? u.group = some g)
    (hfit : g.subgroupOffset u.subgroup + u.units ≤ g.units) (h : s.build u stage = .ok p) {side : Side}
    (hside : side ∈ u.role.sides) {data : List UInt8} (hdata : p.region? side.region = some data) :
    data.length = events * u.units * 4 := by
  have hmem := List.mem_of_getElem? hg
  cases hon : g.isOn side with
  | false =>
    -- without values there would be no region
    obtain ⟨part, hpart, hlookup⟩ := PayloadSource.region?_of_build hg h hside
    rw [hvalued.off g hmem side hon] at hpart
    cases hpart
    cases hdata.symm.trans hlookup
  | true =>
    have hbytes := PayloadSource.values_of_build hg h hfit hside
    rw [hdata, Option.getD_some] at hbytes
    rw [hbytes, PayloadSource.length_encode_partOf, hvalued.on events rfl g hmem side hon, Nat.mul_div_cancel _ hpos]

/-- Every payload holds its unit's part of its group's values. -/
theorem tiled (ht : s.topology.Sound) (hfilled : s.topology.Filled)
    (hcompile : compile s.topology limits = .ok s.compiled) {payload : MeshUnit → UnitPayload}
    (hbuild : ∀ u ∈ s.compiled.graph.units, s.build u stage = .ok (payload u)) : s.Tiled events payload := by
  obtain ⟨hplan, _, hdrawn⟩ := ht.compile_eq_ok hcompile
  have hrange {u : MeshUnit} (hu : u ∈ s.compiled.graph.units) :=
    ht.exists_range_of_unit hplan (hdrawn.mem_units_iff.1 hu)
  have hwithin : ∀ u ∈ s.compiled.graph.units, ∀ g, s.topology.group? u.group = some g →
      g.subgroupOffset u.subgroup + u.units ≤ g.units := by
    intro u hu g hg
    obtain ⟨found, hfound, hfit⟩ := hrange hu
    cases hg.symm.trans hfound
    exact hfit
  refine ⟨hvalued.on events rfl, hwithin, ?_, ?_, ?_, ?_, ?_⟩
  · intro u hu
    obtain ⟨g, hg, _⟩ := hrange hu
    obtain ⟨_, _, _, _, hpayload⟩ := PayloadSource.layout_of_build hg (hbuild u hu)
    exact ⟨congrArg UnitPayload.unit hpayload, congrArg UnitPayload.role hpayload⟩
  · intro u hu g hg
    exact hvalued.regionList_eq (ht.placed hg).units_pos hg (hbuild u hu)
  · intro u hu side hside data hdata
    obtain ⟨g, hg, hfit⟩ := hrange hu
    exact hvalued.length_region (ht.placed hg).units_pos hg hfit (hbuild u hu) hside hdata
  · intro g hg role hrole
    exact ht.map_place_unitsOf hplan hdrawn hg hrole
  · intro g hg role side hside row
    have hplaces := ht.map_place_unitsOf hplan hdrawn hg (List.ne_nil_of_mem hside)
    obtain ⟨i, hi⟩ := List.mem_iff_getElem?.1 hg
    let values := Binding.rowAt (g.valuesOn side) g.units row
    have hunit : ∀ u ∈ s.compiled.graph.unitsOf role g.id,
        item (((payload u).region? side.region).getD []) (u.units * 4) row = activations (g.partOfRow u values) := by
      intro u hown
      obtain ⟨hu, rfl, hgroup⟩ := Graph.mem_unitsOf.1 hown
      have hfound : s.topology.group? u.group = some g := hgroup ▸ ht.group?_id hg
      exact PayloadSource.item_of_build hfound (hbuild u hu) (hwithin u hu g hfound) hside (hfilled.whole hg side) row
    calc (s.compiled.graph.unitsOf role g.id).flatMap _
        = (s.compiled.graph.unitsOf role g.id).flatMap fun u => activations (g.partOfRow u values) :=
          List.flatMap_congr hunit
      _ = activations (values.take (g.subunits.sum)) := by
          rw [← activations_flatMap, Group.flatMap_partOfRow hplaces]
      _ = activations values := by
          rw [(ht.placed hi).sum_subunits ht.cap_pos, List.take_of_length_le (Binding.length_rowAt_le _ _ _)]

end Valued

/-- Values are cut along the subgroups without loss. For a topology that came about by any calls and
holds the values of a set, whatever else is set of its groups, payloads of all units can be built.
The units of a group that values are for stand for its subgroups in order, and their parts of an
event's row are the whole row. A region of values has a row for each event; it is there for groups
on its side if the set has events; and units have no other regions than those of their role. -/
theorem Given.values_tiled {examples : ExampleSet} (ht : s.topology.Given (some examples))
    (hcompile : compile s.topology limits = .ok s.compiled) (stage : StageDescriptor) :
    (s.routing.Covers s.compiled.graph → ∃ payloads, s.buildAll stage = .ok payloads) ∧
    ∀ payloads, s.buildAll stage = .ok payloads → ∃ payload : MeshUnit → UnitPayload,
      payloads = s.compiled.graph.units.toList.map payload ∧ s.Tiled examples.events.length payload := by
  obtain ⟨hsound, hfilled, hvalued⟩ := ht.invariant
  refine ⟨fun hrouted => ?_, fun payloads h => ?_⟩
  · have hs := PayloadSource.sound_of_compile hsound hfilled hcompile hrouted
    obtain ⟨_, _, hpayloads⟩ := hs.exists_buildAll stage
    exact ⟨_, hpayloads⟩
  · obtain ⟨payload, hbuild, rfl⟩ := PayloadSource.build_of_buildAll h
    exact ⟨payload, rfl, hvalued.tiled hsound hfilled hcompile fun u hu => hbuild u (Array.mem_toList_iff.2 hu)⟩

/-- The last of three events, in a group of three units that is split in two, with weights read later. -/
theorem values_tiled_split_group :
    let dense : Event := { inputs := [⟨none, .dense [some (.ofNat 1), none, some (.ofNat 2)]⟩] }
    let examples : ExampleSet := { label := "set", examples := [{ events := [dense] }, { events := [{}, dense] }] }
    ∃ t id grown compiled bound, make 2 = .ok t ∧
      t.addGroup 3 (Roles.ofList [.input]) none none (some "in") = .ok (id, grown) ∧
      examples.compile grown = .ok (compiled, bound) ∧
      ∃ (s : PayloadSource) (payload : MeshUnit → UnitPayload), s.topology = bound.withWeights #[] ∧
        compile s.topology {} = .ok s.compiled ∧
        s.buildAll ⟨0, .train, .steepest, true, 0, 0⟩ = .ok (s.compiled.graph.units.toList.map payload) ∧
        ((s.compiled.graph.unitsOf .input id).flatMap fun u =>
          item (((payload u).region? .inputs).getD []) (u.units * 4) 2) =
            activations [some (.ofNat 1), none, some (.ofNat 2)] := by
  intro dense examples
  obtain ⟨t, id, grown, compiled, bound, g, p, hmake, hgrown, hbind, hplan, hg, hid, hrow⟩ :
      ∃ t id grown compiled bound g p, make 2 = .ok t ∧
        t.addGroup 3 (Roles.ofList [.input]) none none (some "in") = .ok (id, grown) ∧
        examples.compile grown = .ok (compiled, bound) ∧ Plan.make (bound.withWeights #[]) {} = .ok p ∧
        (bound.withWeights #[]).group? 1 = some g ∧ g.id = id ∧
        Binding.rowAt (g.valuesOn .input) g.units 2 = [some (.ofNat 1), none, some (.ofNat 2)] :=
    ⟨_, _, _, _, _, _, _, rfl, rfl, rfl, rfl, rfl, rfl, rfl⟩
  have ht : (bound.withWeights #[]).Given (some compiled) :=
    (Given.bind (.addGroup (.make hmake) hgrown) rfl hbind).withWeights #[]
  obtain ⟨graph, hcompile, _⟩ := ht.invariant.1.compile_eq hplan
  let routing : RoutingTable := .ofList (graph.partitions.map fun partition => (partition.name, 1))
  have hrouted : routing.Covers graph := by
    intro partition hpartition
    exact RoutingTable.exists_key_ofList (by simpa using ⟨partition, hpartition, rfl⟩)
  let s : PayloadSource :=
    ⟨bound.withWeights #[], ⟨p, graph, p.report graph⟩, {}, {}, .ofExamples ⟨none, none, none⟩ [], routing⟩
  obtain ⟨hbuilt, htiled⟩ := Given.values_tiled (s := s) ht hcompile ⟨0, .train, .steepest, true, 0, 0⟩
  obtain ⟨payloads, hpayloads⟩ := hbuilt hrouted
  obtain ⟨payload, rfl, htiled⟩ := htiled payloads hpayloads
  have htiles := htiled.tiles g (List.mem_of_getElem? hg) .input .input (List.mem_singleton_self _) 2
  rw [hid, hrow] at htiles
  exact ⟨t, id, grown, compiled, bound, hmake, hgrown, hbind, s, payload, rfl, hcompile, hpayloads, htiles⟩

end Topology

end PerceptronMesh

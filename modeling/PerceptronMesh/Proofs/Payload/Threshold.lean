import PerceptronMesh.Proofs.Payload.Core
import PerceptronMesh.Proofs.Placement.Echo

/-!
Regions of Threshold units: flags in the Core region, the table of examples, and of every row of
a group's targets the part that belongs to the unit's subgroup.
-/

namespace PerceptronMesh

open Wire Fixed Numeric

namespace ThresholdCore

/-- Decisions that a Threshold unit waits for, as its Core region has them. -/
def decisionsOf (core : List UInt8) : Nat := coreWord core 72

theorem decisionsOf_bytes (c : ThresholdCore) : decisionsOf c.bytes = c.decisions.toNat := by
  have hlast : c.fields.getLast? = some (.u32 c.decisions) := by
    rw [fields, List.getLast?_append]
    rfl
  obtain ⟨front, hfields⟩ := List.getLast?_eq_some_iff.1 hlast
  have hbytes : c.bytes = encode front ++ littleEndian 4 c.decisions.toNat := by
    rw [bytes, hfields, encode_append]
    simp only [encode, List.flatMap_cons, List.flatMap_nil, Field.bytes, List.append_nil]
  have hlength : (encode front).length = 72 := by
    have hsize := c.length_bytes
    rw [hbytes, List.length_append, length_littleEndian, size] at hsize
    omega
  rw [decisionsOf, coreWord, hbytes, List.drop_left' hlength,
    List.take_of_length_le (length_littleEndian _ _).le, ofLittleEndian_littleEndian]
  exact Nat.mod_eq_of_lt c.decisions.toNat_lt

end ThresholdCore

theorem toList_extract {values : Array UnitValue} {start count : Nat} (h : start + count ≤ values.size) :
    (values.extract start (start + count)).toList =
      (List.range count).map fun c => values.getD (start + c) none := by
  apply List.ext_getElem?
  intro i
  rw [Array.getElem?_toList, Array.getElem?_extract, List.getElem?_map]
  by_cases hi : i < count
  · rw [List.getElem?_range hi, Option.map_some, if_pos (by omega), Array.getD_eq_getD_getElem?,
      Array.getElem?_eq_getElem (by omega), Option.getD_some]
  · rw [List.getElem?_eq_none (by simpa using hi), Option.map_none, if_neg (by omega)]

namespace PayloadSource

variable {s : PayloadSource} {g : Group} {u : MeshUnit} {x : Subgroup} {values : Array UnitValue}
  {data : List UInt8}

/-- The values of a region, row by row. -/
def partOf (g : Group) (subgroup units : Nat) (values : Array UnitValue) : List Activation :=
  (List.range (values.size / g.units)).flatMap fun row => (List.range units).map fun c =>
    .ofOption (values.getD (row * g.units + g.subgroupOffset subgroup + c) none)

theorem valuesRegion_eq_ok (hfit : g.subgroupOffset u.subgroup + u.units ≤ g.units)
    (h : valuesRegion g u values = .ok data) :
    data = encode ((partOf g u.subgroup u.units values).map fun v => .fixed .activation v) := by
  unfold valuesRegion at h
  split at h
  · cases h
  · cases h
    rw [partOf, List.map_flatMap]
    congr 1
    refine List.flatMap_congr fun row hrow => ?_
    have hlast := row_end_le (List.mem_range.1 hrow)
    rw [toList_extract (by omega), List.map_map, List.map_map]
    rfl

/-- A value of the part is found by its row and column; a row that the group does not have is one
of absent values. -/
theorem getD_partOf (hwhole : g.units ∣ values.size) {subgroup units row c : Nat} (hc : c < units) :
    ((partOf g subgroup units values).map Value.raw).toArray.getD (row * units + c) absentRaw =
      (Value.ofOption (values.getD (row * g.units + g.subgroupOffset subgroup + c) none) : Activation).raw := by
  rw [Array.getD_eq_getD_getElem?, List.getElem?_toArray, List.getElem?_map]
  by_cases hrow : row < values.size / g.units
  · rw [partOf, getElem?_rows hrow hc]
    rfl
  · have hnone : values.size ≤ row * g.units + g.subgroupOffset subgroup + c := by
      have hrows : values.size / g.units * g.units ≤ row * g.units := Nat.mul_le_mul_right _ (Nat.not_lt.1 hrow)
      rw [Nat.div_mul_cancel hwhole] at hrows
      omega
    have hlength : (partOf g subgroup units values).length ≤ row * units + c := by
      have hrows : values.size / g.units * units ≤ row * units := Nat.mul_le_mul_right _ (Nat.not_lt.1 hrow)
      rw [partOf, length_rows]
      omega
    rw [List.getElem?_eq_none hlength, Array.getD_eq_getD_getElem?, Array.getElem?_eq_none hnone]
    rfl

/-- A region of values holds the unit's part of them; where there are no values, none is missed. -/
theorem optionalRegion_values {region : Region} {own : List (Region × List UInt8)}
    (hfit : g.subgroupOffset u.subgroup + u.units ≤ g.units) (h : optionalRegion region g u values = .ok own) :
    (own.lookup region).getD [] =
      encode ((partOf g u.subgroup u.units values).map fun v => .fixed .activation v) := by
  unfold optionalRegion at h
  by_cases hempty : values.isEmpty
  · rw [if_pos hempty] at h
    cases h
    have hnone : partOf g u.subgroup u.units values = [] := by
      rw [partOf, Array.isEmpty_iff_size_eq_zero.1 hempty, Nat.zero_div]
      rfl
    rw [hnone]
    rfl
  · rw [if_neg hempty] at h
    cases hvalues : valuesRegion g u values with
    | error e =>
      rw [hvalues] at h
      cases h
    | ok data =>
      rw [hvalues] at h
      cases h
      rw [List.lookup_cons_self, Option.getD_some]
      exact valuesRegion_eq_ok hfit hvalues

theorem coreRegion_threshold (hg : s.topology.group? x.group = some g) :
    s.coreRegion (.threshold x) = .ok (s.thresholdCore g (.threshold x)).bytes := by
  have hown : s.topology.group (MeshUnit.threshold x).group = .ok g := Topology.group_eq_ok_iff.2 hg
  exact bind_eq_ok_iff.2 ⟨g, hown, rfl⟩

/-- What a Threshold unit of a subgroup is loaded with for recording. -/
structure ThresholdRegions (s : PayloadSource) (g : Group) (x : Subgroup) (p : UnitPayload) : Prop where
  core : p.region? .core = some (s.thresholdCore g (.threshold x)).bytes
  examples : p.region? .examples = some (s.examples.examples.flatMap ExampleRecord.bytes)
  targets : (p.region? .targets).getD [] =
    encode ((partOf g x.subgroup x.units g.targets).map fun v => .fixed .activation v)

theorem thresholdRegions_of_build (hg : s.topology.group? x.group = some g)
    (hfit : g.subgroupOffset x.subgroup + x.units ≤ g.units) {stage : StageDescriptor} {p : UnitPayload}
    (h : s.build (.threshold x) stage = .ok p) : s.ThresholdRegions g x p := by
  obtain ⟨core, own, keys, hcore, hown, _, rfl⟩ := build_eq_ok_iff.1 h
  cases hcore.symm.trans (coreRegion_threshold hg)
  refine ⟨rfl, rfl, ?_⟩
  obtain ⟨_, hother, hregions⟩ := bind_eq_ok_iff.1 hown
  cases (Topology.group_eq_ok_iff.2 hg).symm.trans hother
  obtain ⟨h, _⟩ | ⟨h, _⟩ | ⟨h, _⟩ | ⟨_, inputs, targets, hinputs, htargets, rfl⟩ := roleRegions_cases hregions
  case inr.inr.inr =>
    have hlookup (core : List UInt8) : (s.layout core ((.events, s.eventsRegion) :: inputs ++ targets) keys
        stage).lookup .targets = targets.lookup .targets := by
      obtain rfl | ⟨data, rfl⟩ := optionalRegion_eq_ok hinputs
      all_goals obtain rfl | ⟨row, rfl⟩ := optionalRegion_eq_ok htargets
      all_goals rfl
    rw [UnitPayload.region?, hlookup]
    have hvalues := optionalRegion_values (u := .threshold x) hfit htargets
    exact hvalues
  all_goals cases h

end PayloadSource

end PerceptronMesh

import PerceptronMesh.Proofs.Payload.Core
import PerceptronMesh.Proofs.Wire.Items

/-!
Regions of Weight units: the table of weights between two subgroups, and the size of the table
and the rates in the Core region.
-/

namespace PerceptronMesh

open Wire Fixed Numeric

/-- Rows of the table of a Weight unit, as its Core region has them. -/
def WeightCore.rowsOf (core : List UInt8) : Nat := coreWord core 0

def WeightCore.columnsOf (core : List UInt8) : Nat := coreWord core 4

/-- Learning rate, decay and momentum in the Core region of a Weight unit. -/
def WeightCore.ratesOf (core : List UInt8) : List UInt8 := (core.drop 12).take 6

namespace WeightCore

variable (c : WeightCore)

theorem bytes_eq : ∃ rest, c.bytes = littleEndian 4 c.rows.toNat ++ (littleEndian 4 c.columns.toNat ++
    (c.initOutput.bytes ++ ((c.learningRate.bytes ++ c.weightDecay.bytes ++ c.momentum.bytes) ++ rest))) :=
  ⟨List.replicate 2 0 ++ encode (Category.all.map fun category => .u32 (c.expected category)), by
    simp only [bytes, fields, encode, List.cons_append, List.nil_append, List.flatMap_cons, Field.bytes,
      List.append_assoc]⟩

theorem rowsOf_bytes : rowsOf c.bytes = c.rows.toNat := by
  obtain ⟨rest, hbytes⟩ := c.bytes_eq
  rw [rowsOf, coreWord, hbytes, List.drop_zero, List.take_left' (length_littleEndian _ _),
    ofLittleEndian_littleEndian]
  exact Nat.mod_eq_of_lt c.rows.toNat_lt

theorem columnsOf_bytes : columnsOf c.bytes = c.columns.toNat := by
  obtain ⟨rest, hbytes⟩ := c.bytes_eq
  rw [columnsOf, coreWord, hbytes, List.drop_left' (length_littleEndian _ _),
    List.take_left' (length_littleEndian _ _), ofLittleEndian_littleEndian]
  exact Nat.mod_eq_of_lt c.columns.toNat_lt

theorem ratesOf_bytes : ratesOf c.bytes = c.learningRate.bytes ++ c.weightDecay.bytes ++ c.momentum.bytes := by
  obtain ⟨rest, hbytes⟩ := c.bytes_eq
  have hhead : (littleEndian 4 c.rows.toNat ++ (littleEndian 4 c.columns.toNat ++ c.initOutput.bytes)).length = 12 := by
    simp [Format.width]
  rw [ratesOf, hbytes, ← List.append_assoc, ← List.append_assoc, List.append_assoc (littleEndian 4 c.rows.toNat),
    List.drop_left' hhead, List.take_left']
  simp [Format.width]

end WeightCore

namespace PayloadSource

variable {weights : Array Binary64} {sourceUnits rowOffset rows columnOffset columns : Nat}

theorem width_weightBlock : ∀ field ∈ weightBlock weights sourceUnits rowOffset rows columnOffset columns,
    field.width = 4 := by
  intro field hfield
  simp only [weightBlock, List.mem_flatMap, List.mem_map] at hfield
  obtain ⟨_, _, _, _, rfl⟩ := hfield
  rfl

theorem length_weightBlock :
    (encode (weightBlock weights sourceUnits rowOffset rows columnOffset columns)).length = rows * columns * 4 := by
  rw [length_encode_of_width width_weightBlock, weightBlock, length_rows]

/-- The weight of a source unit and a target unit stands in their row and column. -/
theorem item_weightBlock {u v : Nat} {x : Binary64} (hrow : rowOffset ≤ v ∧ v < rowOffset + rows)
    (hcolumn : columnOffset ≤ u ∧ u < columnOffset + columns) (hx : weights[u * sourceUnits + v]? = some x) :
    item (encode (weightBlock weights sourceUnits rowOffset rows columnOffset columns)) 4
        ((v - rowOffset) * columns + (u - columnOffset)) = (Value.ofBinary64 x : WeightValue).bytes := by
  have hv : v - rowOffset < rows := Nat.sub_lt_left_of_lt_add hrow.1 hrow.2
  have hu : u - columnOffset < columns := Nat.sub_lt_left_of_lt_add hcolumn.1 hcolumn.2
  have hfield := getElem?_rows (f := fun r c => Field.fixed .weight (.ofBinary64
    (weights.getD ((columnOffset + c) * sourceUnits + rowOffset + r) (.zero false)))) hv hu
  have hindex : (columnOffset + (u - columnOffset)) * sourceUnits + rowOffset + (v - rowOffset) =
      u * sourceUnits + v := by
    rw [Nat.add_sub_cancel' hcolumn.1]
    omega
  rw [item_encode width_weightBlock hfield, hindex, Array.getD_eq_getD_getElem?, hx]
  rfl

/-- A table without weights is all zero. -/
theorem weightBlock_zero {count : Nat} : ∀ byte ∈ encode (weightBlock (Array.replicate count (.zero false))
    sourceUnits rowOffset rows columnOffset columns), byte = 0 := by
  intro byte hbyte
  simp only [encode, weightBlock, List.mem_flatMap, List.mem_map] at hbyte
  obtain ⟨field, ⟨_, _, _, _, rfl⟩, hbyte⟩ := hbyte
  have hheld (i : Nat) : (Array.replicate count (Binary64.zero false)).getD i (.zero false) = .zero false := by
    rw [Array.getD_eq_getD_getElem?, Array.getElem?_replicate]
    split <;> rfl
  have hzero : (Value.ofBinary64 (.zero false) : WeightValue).bytes = List.replicate 4 0 := by decide +kernel
  rw [hheld, Field.bytes, hzero] at hbyte
  exact List.eq_of_mem_replicate hbyte

variable {s : PayloadSource} {x y : Subgroup} {target source : Group}

/-- The Weights region is the table, if the group's weights suffice. -/
theorem weightsRegion_weight (htarget : s.topology.group? x.group = some target)
    (hsource : s.topology.group? y.group = some source)
    (henough : ∀ held, target.weightsFrom? y.group = some held → target.units * source.units ≤ held.size) :
    s.weightsRegion (.weight x y) = .ok (encode (weightBlock
      ((target.weightsFrom? y.group).getD (Array.replicate (target.units * source.units) (.zero false)))
      source.units (source.subgroupOffset y.subgroup) (source.subgroupUnits y.subgroup)
      (target.subgroupOffset x.subgroup) (target.subgroupUnits x.subgroup))) := by
  have hsuffice : ¬((target.weightsFrom? y.group).getD
      (Array.replicate (target.units * source.units) (.zero false))).size < target.units * source.units := by
    cases hheld : target.weightsFrom? y.group with
    | none => simp
    | some held => simpa using henough held hheld
  have hplace : weightSource (.weight x y) = .ok (y.group, y.subgroup) := rfl
  have hown : s.topology.group (MeshUnit.weight x y).group = .ok target := Topology.group_eq_ok_iff.2 htarget
  have hother : s.topology.group y.group = .ok source := Topology.group_eq_ok_iff.2 hsource
  unfold weightsRegion
  simp only [bind, Except.bind, hplace, hown, hother]
  rw [if_neg hsuffice]
  rfl

theorem coreRegion_weight (htarget : s.topology.group? x.group = some target)
    (hsource : s.topology.group? y.group = some source) :
    s.coreRegion (.weight x y) = .ok (s.weightCore target source y.subgroup (.weight x y)).bytes := by
  have hown : s.topology.group (MeshUnit.weight x y).group = .ok target := Topology.group_eq_ok_iff.2 htarget
  have hother : s.topology.group y.group = .ok source := Topology.group_eq_ok_iff.2 hsource
  exact bind_eq_ok_iff.2 ⟨target, hown, bind_eq_ok_iff.2
    ⟨(y.group, y.subgroup), rfl, bind_eq_ok_iff.2 ⟨source, hother, rfl⟩⟩⟩

end PayloadSource

end PerceptronMesh

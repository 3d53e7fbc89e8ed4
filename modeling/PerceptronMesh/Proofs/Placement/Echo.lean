import PerceptronMesh.Payload.Core
import PerceptronMesh.Placement.Echo
import PerceptronMesh.Proofs.Wire.Items
import PerceptronMesh.Proofs.Wire.Reader

/-!
What a recording reads back from the regions of a Threshold unit: the flags of its Core region,
the spans in its table of examples and the raw targets are those that were encoded.
-/

namespace PerceptronMesh

open Wire Fixed

/-- The byte of a flag. -/
def flagByte (b : Bool) : UInt8 := if b then 1 else 0

theorem flagByte_ne_zero (b : Bool) : (flagByte b != 0) = b := by cases b <;> rfl

namespace Echo

/-- A Core region begins with the flags that recording depends on. -/
theorem thresholdCore_bytes (c : ThresholdCore) : ∃ rest, c.bytes =
    littleEndian 1 (flagByte c.isOutput).toNat ++
      ((littleEndian 1 (flagByte c.isInput).toNat ++ List.replicate 2 0) ++
      (littleEndian 4 c.units.toNat ++
      ((littleEndian 4 c.partitions.toNat ++ littleEndian 1 (flagByte c.recordResults).toNat) ++
      (littleEndian 1 (flagByte c.writeOut).toNat ++
      (littleEndian 1 (flagByte c.lastTickOnly).toNat ++ rest))))) := by
  refine ⟨encode (c.fields.drop 8), ?_⟩
  simp only [ThresholdCore.bytes, ThresholdCore.fields, encode, Field.flag, flagByte, List.cons_append,
    List.nil_append, List.flatMap_cons, Field.bytes, List.append_assoc, List.drop_succ_cons, List.drop_zero]

theorem OutputFlags.read_bytes (c : ThresholdCore) : OutputFlags.read c.bytes = .ok
    { isOutput := c.isOutput, units := c.units.toNat, writeOut := c.writeOut, lastTickOnly := c.lastTickOnly } := by
  obtain ⟨rest, hbytes⟩ := thresholdCore_bytes c
  unfold OutputFlags.read Reader.ofBytes
  rw [hbytes]
  simp only [bind, Except.bind, Reader.u8_append, Reader.u32_append,
    Reader.skip_append (show (littleEndian 1 (flagByte c.isInput).toNat ++ List.replicate 2 0).length = 3 by simp),
    Reader.skip_append (show (littleEndian 4 c.partitions.toNat ++
      littleEndian 1 (flagByte c.recordResults).toNat).length = 5 by simp), flagByte_ne_zero]
  rfl

theorem eventSpans_cons (r : ExampleRecord) (rest : List UInt8) :
    eventSpans (r.bytes ++ rest) = ⟨r.events.toNat, r.firstEvent.toNat⟩ :: eventSpans rest := by
  have hword (n : UInt32) : ofLittleEndian (littleEndian 4 n.toNat) = n.toNat := by
    rw [ofLittleEndian_littleEndian]
    exact Nat.mod_eq_of_lt n.toNat_lt
  rw [← hword r.events, ← hword r.firstEvent]
  rfl

/-- A table of examples is read back as the span of each. -/
theorem eventSpans_bytes (records : List ExampleRecord) :
    eventSpans (records.flatMap ExampleRecord.bytes) =
      records.map fun r => ⟨r.events.toNat, r.firstEvent.toNat⟩ := by
  induction records with
  | nil => rfl
  | cons r rest ih => rw [List.flatMap_cons, eventSpans_cons, ih, List.map_cons]

theorem signedWords_cons (v : Activation) (rest : List UInt8) :
    signedWords (v.bytes ++ rest) = v.raw :: signedWords rest := by
  have hraw : signed 32 (ofLittleEndian (littleEndian 4 v.bits.toNat)) = v.raw := by
    have hlt : v.bits.toNat < Nat.pow 256 4 := v.bits.isLt
    rw [ofLittleEndian_littleEndian, Nat.mod_eq_of_lt hlt]
    show (if v.bits.toNat < 2 ^ 31 then (v.bits.toNat : Int) else v.bits.toNat - 2 ^ 32) = v.bits.toInt
    rw [BitVec.toInt_eq_toNat_cond]
    show _ = if 2 * v.bits.toNat < 2 ^ 32 then (v.bits.toNat : Int) else v.bits.toNat - ((2 ^ 32 : Nat) : Int)
    by_cases hsmall : v.bits.toNat < 2 ^ 31
    · rw [if_pos hsmall, if_pos (by omega)]
    · rw [if_neg hsmall, if_neg (by omega)]
      rfl
  rw [← hraw]
  rfl

/-- Activations one after another are read back as their raw values. -/
theorem signedWords_bytes (values : List Activation) :
    signedWords (encode (values.map fun v => .fixed .activation v)) = values.map Value.raw := by
  induction values with
  | nil => rfl
  | cons v rest ih =>
    rw [List.map_cons, encode, List.flatMap_cons, ← encode, List.map_cons, ← ih]
    exact signedWords_cons v _

end Echo

theorem SubgroupOutputs.words_bytes (values : List UInt16) :
    words (values.flatMap fun v => littleEndian 2 v.toNat) = values := by
  induction values with
  | nil => rfl
  | cons v rest ih =>
    have hword : UInt16.ofNat (ofLittleEndian (littleEndian 2 v.toNat)) = v := by
      rw [ofLittleEndian_littleEndian, Nat.mod_eq_of_lt v.toNat_lt, UInt16.ofNat_toNat]
    rw [List.flatMap_cons]
    show UInt16.ofNat (ofLittleEndian (littleEndian 2 v.toNat)) ::
      words (rest.flatMap fun v => littleEndian 2 v.toNat) = _
    rw [hword, ih]

end PerceptronMesh

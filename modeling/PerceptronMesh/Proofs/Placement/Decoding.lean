import PerceptronMesh.Proofs.Network.OutputLayout
import PerceptronMesh.Proofs.Payload.Records
import PerceptronMesh.Proofs.Payload.Total
import PerceptronMesh.Proofs.Placement.Failed

/-!
Reading records back. Test results and recorded ticks are recovered from their bytes, outputs are read
tick by tick up to the last whole one, and the bytes of a stage that units hold are those of one stage
only, so that a run accepts no other.
-/

namespace PerceptronMesh

open Wire

theorem four_words_append (a b c d : UInt32) (rest : List UInt8) :
    encode [.u32 a, .u32 b, .u32 c, .u32 d] ++ rest = littleEndian 4 a.toNat ++ (littleEndian 4 b.toNat ++
      (littleEndian 4 c.toNat ++ (littleEndian 4 d.toNat ++ rest))) := by
  simp only [encode, List.flatMap_cons, List.flatMap_nil, Field.bytes, List.append_assoc, List.nil_append]

/-- A word is written as the bytes that it was read from. -/
theorem word_bytes {bytes : List UInt8} (h : bytes.length = 4) :
    littleEndian 4 (UInt32.ofNat (ofLittleEndian bytes)).toNat = bytes := by
  have hwidth : bytes.length = Kind.u32.width := h
  exact Kind.bytes_ofBytes hwidth (by simp)

/-- Bytes after the record are not looked at. -/
theorem TestResults.decode_append (r : TestResults) (rest : List UInt8) : decode (r.bytes ++ rest) = .ok r := by
  unfold decode bytes fields Reader.ofBytes
  rw [four_words_append]
  simp only [Reader.u32_append, bind, Except.bind]
  rfl

namespace TickRecord

theorem read_append (r : TickRecord) (position : Nat) (rest : List UInt8) :
    read ⟨position, r.bytes ++ rest⟩ = .ok (r, ⟨position + size, rest⟩) := by
  unfold read bytes fields
  rw [four_words_append]
  simp only [Reader.u32_append, bind, Except.bind]
  rfl

theorem readMany_encodeAll (records : List TickRecord) (position : Nat) (rest : List UInt8) :
    readMany records.length ⟨position, encodeAll records ++ rest⟩ = .ok records := by
  induction records generalizing position with
  | nil => rfl
  | cons r records ih =>
    have hbytes : encodeAll (r :: records) ++ rest = r.bytes ++ (encodeAll records ++ rest) := by
      rw [encodeAll, List.flatMap_cons, List.append_assoc, ← encodeAll]
    rw [List.length_cons, readMany, hbytes, read_append]
    simp only [bind, Except.bind, ih]
    rfl

theorem length_encodeAll (records : List TickRecord) : (encodeAll records).length = records.length * size :=
  length_flatMap_of_width fun r _ => length_bytes r

theorem decodeAll_encodeAll (records : List TickRecord) : decodeAll (encodeAll records) = .ok records := by
  have hread := readMany_encodeAll records 0 []
  rw [List.append_nil] at hread
  unfold decodeAll Reader.ofBytes
  rw [length_encodeAll, Nat.mul_mod_left, if_neg (not_not.2 rfl), Nat.mul_div_cancel _ (by decide), hread]
  rfl

/-- The record that sixteen bytes hold. -/
theorem exists_bytes {data : List UInt8} (h : data.length = size) : ∃ r : TickRecord, r.bytes = data := by
  have hword (index : Nat) (hindex : index < 4) : (item data 4 index).length = 4 := by
    rw [item, List.length_take, List.length_drop, h, size]
    omega
  let word (index : Nat) : UInt32 := .ofNat (ofLittleEndian (item data 4 index))
  refine ⟨⟨word 0, word 1, word 2, word 3⟩, ?_⟩
  have hbytes := four_words_append (word 0) (word 1) (word 2) (word 3) []
  rw [List.append_nil] at hbytes
  refine hbytes.trans ?_
  rw [word_bytes (hword 0 (by decide)), word_bytes (hword 1 (by decide)), word_bytes (hword 2 (by decide)),
    word_bytes (hword 3 (by decide))]
  exact (flatMap_item data 4 4).trans (List.take_of_length_le h.le)

theorem exists_encodeAll {data : List UInt8} (h : size ∣ data.length) :
    ∃ records, encodeAll records = data := by
  obtain ⟨count, hcount⟩ := h
  induction count generalizing data with
  | zero => exact ⟨[], (List.length_eq_zero_iff.1 hcount).symm⟩
  | succ count ih =>
    rw [Nat.mul_succ] at hcount
    have hfirst : (data.take size).length = size := by
      rw [List.length_take]
      omega
    have hrest : (data.drop size).length = size * count := by
      rw [List.length_drop]
      omega
    obtain ⟨r, hr⟩ := exists_bytes hfirst
    obtain ⟨records, hrecords⟩ := ih hrest
    refine ⟨r :: records, ?_⟩
    rw [encodeAll, List.flatMap_cons, ← encodeAll, hr, hrecords, List.take_append_drop]

theorem exists_decodeAll_iff {data : List UInt8} : (∃ records, decodeAll data = .ok records) ↔
    size ∣ data.length := by
  constructor
  · rintro ⟨records, h⟩
    by_contra hpartial
    unfold decodeAll at h
    rw [if_pos (mt Nat.dvd_of_mod_eq_zero hpartial)] at h
    cases h
  · intro h
    obtain ⟨records, rfl⟩ := exists_encodeAll h
    exact ⟨records, decodeAll_encodeAll records⟩

theorem encodeAll_of_decodeAll {data : List UInt8} {records : List TickRecord}
    (h : decodeAll data = .ok records) : encodeAll records = data := by
  obtain ⟨others, rfl⟩ := exists_encodeAll (exists_decodeAll_iff.1 ⟨records, h⟩)
  rw [Except.ok.inj ((decodeAll_encodeAll others).symm.trans h)]

end TickRecord

namespace SubgroupOutputs

/-- The bytes that words were read from. -/
theorem bytes_words {data : List UInt8} {count : Nat} (h : data.length = 2 * count) :
    (words data).flatMap (fun value => littleEndian 2 value.toNat) = data := by
  induction count generalizing data with
  | zero =>
    rw [List.length_eq_zero_iff.1 h]
    rfl
  | succ count ih =>
    match data, h with
    | low :: high :: rest, h =>
      have hrest : rest.length = 2 * count := by
        simp only [List.length_cons] at h
        omega
      have hword : littleEndian 2 (UInt16.ofNat (ofLittleEndian [low, high])).toNat = [low, high] := by
        have hwidth : [low, high].length = Kind.u16.width := rfl
        exact Kind.bytes_ofBytes hwidth (by simp)
      rw [words, List.flatMap_cons, hword, ih hrest]
      rfl

variable (o : SubgroupOutputs)

theorem exists_tick_iff (index : Nat) : (∃ row, o.tick index = .ok row) ↔
    o.address (index * o.width) ≤ o.address (o.address (index * o.width) + o.width) ∧
      o.address (o.address (index * o.width) + o.width) ≤ o.data.length := by
  rw [← Nat.not_lt, ← Nat.not_lt, ← not_or]
  unfold tick
  dsimp only
  split
  case isTrue hpast => exact iff_of_false (by rintro ⟨_, ⟨⟩⟩) (not_not.2 hpast)
  case isFalse hheld => exact iff_of_true ⟨_, rfl⟩ hheld

/-- Ticks whose end can be counted in a word are read if they are recorded. -/
theorem exists_tick_iff_lt (h : 0 < o.units) {index : Nat} (hend : (index + 1) * o.width < Nat.pow 2 64) :
    (∃ row, o.tick index = .ok row) ↔ index < o.ticks := by
  have hwidth : 0 < o.width := Nat.mul_pos (by decide) h
  have hwhole : index < o.ticks ↔ index * o.width + o.width ≤ o.data.length := by
    rw [ticks, if_neg h.ne', ← Nat.succ_mul, ← Nat.le_div_iff_mul_le hwidth]
    rfl
  rw [Nat.succ_mul] at hend
  rw [hwhole, exists_tick_iff, o.address_of_lt (Nat.lt_of_le_of_lt (Nat.le_add_right ..) hend), o.address_of_lt hend,
    and_iff_right (Nat.le_add_right ..)]

/-- Which ticks are read of data in memory: those whose start, once it has wrapped, has a whole tick
behind it. -/
theorem exists_tick_iff_mod (hwidth : o.width < Nat.pow 2 64) (hdata : o.data.length < Nat.pow 2 64) (index : Nat) :
    (∃ row, o.tick index = .ok row) ↔ index * o.width % Nat.pow 2 64 + o.width ≤ o.data.length := by
  have hstart : index * o.width % Nat.pow 2 64 < Nat.pow 2 64 := Nat.mod_lt _ (by decide)
  have haddress (position : Nat) : o.address position = position % Nat.pow 2 64 := if_pos hdata
  rw [exists_tick_iff, haddress, haddress]
  generalize index * o.width % Nat.pow 2 64 = start at hstart ⊢
  by_cases hend : start + o.width < Nat.pow 2 64
  · rw [Nat.mod_eq_of_lt hend, and_iff_right (Nat.le_add_right ..)]
  · -- an end that wraps lies before the start
    have hwrapped : (start + o.width) % Nat.pow 2 64 = start + o.width - Nat.pow 2 64 := by
      rw [Nat.mod_eq_sub_mod (Nat.not_lt.1 hend)]
      exact Nat.mod_eq_of_lt (by omega)
    rw [hwrapped]
    omega

/-- The ticks in order, written again, are the data without what is left of a tick that was cut short. -/
theorem mapM_tick (h : 0 < o.units) :
    ∃ rows, (List.range o.ticks).mapM o.tick = .ok rows ∧ (∀ row ∈ rows, row.length = o.units) ∧
      ∃ rest, rows.flatten.flatMap (fun value => littleEndian 2 value.toNat) ++ rest = o.data ∧
        rest.length < o.width := by
  have hwidth : 0 < o.width := Nat.mul_pos (by decide) h
  have hticks : o.ticks = o.data.length / o.width := if_neg h.ne'
  have hrow {index : Nat} (hindex : index ∈ List.range o.ticks) :
      o.tick index = .ok (words (item o.data o.width index)) ∧
        (item o.data o.width index).length = 2 * o.units := by
    rw [List.mem_range, hticks] at hindex
    have hend := row_end_le hindex
    refine ⟨o.tick_of_le hend, ?_⟩
    rw [item, List.length_take, List.length_drop]
    exact Nat.min_eq_left (Nat.le_sub_of_add_le' hend)
  refine ⟨_, mapM_eq_ok fun index hindex => (hrow hindex).1, ?_, o.data.drop (o.ticks * o.width), ?_, ?_⟩
  · intro row hrows
    obtain ⟨index, hindex, rfl⟩ := List.mem_map.1 hrows
    rw [words_eq (hrow hindex).2, List.length_map, List.length_range]
  · have hwritten : ∀ index ∈ List.range o.ticks,
        (words (item o.data o.width index)).flatMap (fun value => littleEndian 2 value.toNat) =
          item o.data o.width index := fun _ hindex => bytes_words (hrow hindex).2
    rw [← List.flatMap_def, List.flatMap_assoc, List.flatMap_congr hwritten, flatMap_item, List.take_append_drop]
  · rw [List.length_drop, hticks, Nat.mul_comm]
    exact Nat.mod_eq_sub .. ▸ Nat.mod_lt _ hwidth

end SubgroupOutputs

namespace Loopback

variable {s later : Loopback} {stage : StageDescriptor} {report : StageReport} {p : UnitPayload}

theorem run_of_stale (hrunning : s.stopped = false) (hp : p ∈ s.payloads)
    (hstale : p.region? .stage ≠ some stage.bytes) : ∃ other ∈ s.payloads,
      other.region? .stage ≠ some stage.bytes ∧ run stage s = .error (.placement (.staleStage other.unit)) s := by
  have hloaded : s.payloads.isEmpty = false := List.isEmpty_eq_false_iff.2 (List.ne_nil_of_mem hp)
  cases hunit : s.staleUnit? stage with
  | none => exact absurd (staleUnit?_eq_none_iff.1 hunit p hp) hstale
  | some unit =>
    obtain ⟨other, hfound, rfl⟩ := Option.map_eq_some_iff.1 hunit
    refine ⟨other, List.mem_of_find?_eq_some hfound, by simpa using List.find?_some hfound, ?_⟩
    unfold run
    rw [Step.bind_ok (checkRunning_ok hrunning .run), Step.bind_ok (x := get) rfl, hloaded, hunit]
    rfl

theorem held_of_run (h : run stage s = .ok report later) (hp : p ∈ s.payloads) :
    p.region? .stage = some stage.bytes := by
  by_contra hstale
  cases hstopped : s.stopped with
  | true =>
    have hrefused : run stage s = .error (.placement (.stopped .run)) s :=
      Step.bind_error (checkRunning_error hstopped .run)
    cases hrefused.symm.trans h
  | false =>
    obtain ⟨_, _, _, hrun⟩ := run_of_stale hstopped hp hstale
    cases hrun.symm.trans h

end Loopback

end PerceptronMesh

import Mathlib.Data.Int.ConditionallyCompleteOrder
import PerceptronMesh.Fixed.Value
import PerceptronMesh.Proofs.Numeric.Exact

/-!
Encoding is rounding to the nearest multiple of `2 ^ -shift`, halves away from zero, held inside the
range of the format. The arithmetic of doubles loses nothing on the way: it only scales by a power of
two, rounds to a whole number and compares with the ends of the range.
-/

namespace PerceptronMesh

open Numeric

namespace Fixed

theorem roundAway_eq (negative : Bool) (significand : Nat) (power : Int) :
    roundAway negative significand power = roundHalfAway (withSign negative (significand * 2 ^ power)) := by
  have hround := roundDiv_up_eq_round (scaleByPower significand power).1 (scaleByPower_den_pos significand power)
  rw [scaleByPower_div] at hround
  rw [roundHalfAway_withSign negative (magnitude_nonneg ..), ← hround]
  rfl

namespace Format

theorem rawMin_lt_rawMax (f : Format) : f.rawMin < f.rawMax := by cases f <;> decide

/-- Both ends of the range are words, and the absent pattern is below it. -/
theorem range_word (f : Format) : absentRaw < f.rawMin ∧ f.rawMax < -absentRaw := by cases f <;> decide

section Encode

variable {f : Format} {x y : Binary64} {q : ℚ}

theorem raw_clamp (f : Format) (rounded : Int) : (f.clamp rounded).raw = max f.rawMin (min f.rawMax rounded) := by
  have hrange := f.rawMin_lt_rawMax
  unfold clamp
  split
  · dsimp only
    omega
  · split <;> dsimp only <;> omega

theorem saturated_clamp (f : Format) (rounded : Int) :
    (f.clamp rounded).saturated = true ↔ rounded < f.rawMin ∨ f.rawMax < rounded := by
  unfold clamp
  split
  · simp [*]
  · split <;> simp [*]

theorem encode_of_rat? (h : x.rat? = some q) : f.encode x = f.clamp (roundHalfAway (q * 2 ^ f.shift)) := by
  obtain ⟨negative, significand, power, hreading, rfl⟩ := Binary64.rat?_eq_some h
  unfold encode
  rw [hreading, withSign_mul_two_pow, ← roundAway_eq]

theorem rat?_ofIntRatio_of_word {value : Int} (hvalue : absentRaw ≤ value ∧ value < -absentRaw) (f : Format) :
    (Binary64.ofIntRatio value (2 ^ f.shift)).rat? = some ((value : ℚ) / 2 ^ f.shift) := by
  have hbound : absentRaw = -2147483648 := rfl
  have hshift : f.shift ≤ 1074 := by cases f <;> decide
  exact Binary64.rat?_ofIntRatio (by omega) hshift

theorem decode_of_mem {raw : Int} (hlow : f.rawMin ≤ raw) (hhigh : raw ≤ f.rawMax) :
    ∃ y, f.decode raw = some y ∧ y.rat? = some ((raw : ℚ) / 2 ^ f.shift) := by
  obtain ⟨hmin, hmax⟩ := f.range_word
  have hpresent : ¬(f.hasAbsent && raw = absentRaw : Bool) = true := by
    rw [Bool.and_eq_true, decide_eq_true_iff]
    rintro ⟨-, rfl⟩
    exact absurd hmin (Int.not_lt.2 hlow)
  refine ⟨_, if_neg hpresent, ?_⟩
  exact rat?_ofIntRatio_of_word ⟨hmin.le.trans hlow, hhigh.trans_lt hmax⟩ f

theorem encode_decode {raw : Int} (hlow : f.rawMin ≤ raw) (hhigh : raw ≤ f.rawMax) :
    ∃ y, f.decode raw = some y ∧ y.rat? = some ((raw : ℚ) / 2 ^ f.shift) ∧ f.encode y = ⟨raw, false⟩ := by
  obtain ⟨y, hdecode, hrat⟩ := decode_of_mem hlow hhigh
  refine ⟨y, hdecode, hrat, ?_⟩
  rw [encode_of_rat? hrat, div_mul_cancel₀ _ (pow_pos two_pos _).ne', roundHalfAway_intCast, clamp,
    if_neg (Int.not_lt.2 hlow), if_neg (Int.not_lt.2 hhigh)]

theorem decode_encode (h : x.rat? = some q) (hsaturated : (f.encode x).saturated = false) :
    ∃ y p, f.decode (f.encode x).raw = some y ∧ y.rat? = some p ∧ |p - q| ≤ 1 / 2 ^ (f.shift + 1) := by
  rw [encode_of_rat? h] at hsaturated ⊢
  have hinside := mt (saturated_clamp f _).2 (Bool.eq_false_iff.1 hsaturated)
  rw [not_or, Int.not_lt, Int.not_lt] at hinside
  have hraw : (f.clamp (roundHalfAway (q * 2 ^ f.shift))).raw = roundHalfAway (q * 2 ^ f.shift) := by
    rw [raw_clamp, Int.min_eq_right hinside.2, Int.max_eq_right hinside.1]
  obtain ⟨y, hdecode, hrat⟩ := decode_of_mem hinside.1 hinside.2
  refine ⟨y, _, by rw [hraw]; exact hdecode, hrat, ?_⟩
  have hpow : (0 : ℚ) < 2 ^ f.shift := pow_pos two_pos _
  have hround := abs_roundHalfAway_sub (q * 2 ^ f.shift)
  calc |(roundHalfAway (q * 2 ^ f.shift) : ℚ) / 2 ^ f.shift - q|
      = |(roundHalfAway (q * 2 ^ f.shift) : ℚ) - q * 2 ^ f.shift| / 2 ^ f.shift := by
        rw [← abs_of_pos hpow, ← abs_div, abs_of_pos hpow, sub_div, mul_div_cancel_right₀ _ hpow.ne']
    _ ≤ 1 / 2 / 2 ^ f.shift := by gcongr
    _ = 1 / 2 ^ (f.shift + 1) := by rw [div_div, pow_succ']

theorem encode_of_isNaN (f : Format) (h : x.isNaN = true) :
    f.encode x = ⟨if f.hasAbsent then absentRaw else 0, false⟩ := by
  unfold encode
  rw [of_decide_eq_true h]

theorem encode_of_infinite (f : Format) {negative : Bool} (h : x.reading = .infinite negative) :
    f.encode x = ⟨if negative then f.rawMin else f.rawMax, true⟩ := by
  unfold encode
  rw [h]

end Encode

section Stepwise

/-- Holds a whole double inside the range of a format. -/
def holdWhole (f : Format) (whole : Binary64) : Encoded :=
  if whole.lt (.ofIntRatio f.rawMin 1) then ⟨f.rawMin, true⟩
  else if (Binary64.ofIntRatio f.rawMax 1).lt whole then ⟨f.rawMax, true⟩
  else ⟨whole.truncate (-2 ^ 31) (2 ^ 31 - 1), false⟩

/-- Encoding in the arithmetic of doubles: scaling, rounding, comparing with the ends of the range. -/
def encodeStepwise (f : Format) (x : Binary64) : Encoded :=
  if x.isNaN then ⟨if f.hasAbsent then absentRaw else 0, false⟩
  else f.holdWhole (x.mul (.ofNat (2 ^ f.shift))).nearestWhole

variable {x : Binary64} {q : ℚ}

theorem rat?_end {value : Int} (hvalue : absentRaw ≤ value ∧ value < -absentRaw) :
    (Binary64.ofIntRatio value 1).rat? = some (value : ℚ) := by
  have hbound : absentRaw = -2147483648 := rfl
  have hrat := Binary64.rat?_ofIntRatio (show value.natAbs < 2 ^ 53 by omega) (Nat.zero_le 1074)
  rwa [pow_zero, pow_zero, div_one] at hrat

theorem rat?_rawMin (f : Format) : (Binary64.ofIntRatio f.rawMin 1).rat? = some (f.rawMin : ℚ) :=
  rat?_end ⟨f.range_word.1.le, f.rawMin_lt_rawMax.trans f.range_word.2⟩

theorem rat?_rawMax (f : Format) : (Binary64.ofIntRatio f.rawMax 1).rat? = some (f.rawMax : ℚ) :=
  rat?_end ⟨f.range_word.1.le.trans f.rawMin_lt_rawMax.le, f.range_word.2⟩

theorem holdWhole_of_rat? (f : Format) {whole : Binary64} {n : ℤ} (h : whole.rat? = some (n : ℚ)) :
    f.holdWhole whole = f.clamp n := by
  obtain ⟨hmin, hmax⟩ := f.range_word
  have hbound : absentRaw = -2147483648 := rfl
  unfold holdWhole clamp
  rw [Binary64.lt_of_rat? h f.rat?_rawMin, Binary64.lt_of_rat? f.rat?_rawMax h, Binary64.truncate_of_rat? h]
  simp only [Int.cast_lt, decide_eq_true_eq]
  split
  · rfl
  · split
    · rfl
    · congr 1
      omega

theorem holdWhole_of_infinite (f : Format) {negative : Bool} (h : x.reading = .infinite negative) :
    f.holdWhole x = ⟨if negative then f.rawMin else f.rawMax, true⟩ := by
  unfold holdWhole Binary64.lt
  rw [Binary64.place?_of_rat? f.rat?_rawMin, Binary64.place?_of_rat? f.rat?_rawMax]
  unfold Binary64.place?
  rw [h]
  cases negative <;> simp

theorem holdWhole_nearestWhole (f : Format) (h : x.rat? = some q) :
    f.holdWhole x.nearestWhole = f.clamp (roundHalfAway q) :=
  f.holdWhole_of_rat? (Binary64.nearestWhole_of_rat? h)

theorem clamp_of_huge (f : Format) (negative : Bool) {magnitude : ℚ}
    (h : (2 : ℚ) ^ (1024 : Int) ≤ magnitude) :
    f.clamp (roundHalfAway (withSign negative magnitude)) = ⟨if negative then f.rawMin else f.rawMax, true⟩ := by
  have hrange := f.rawMin_lt_rawMax
  obtain ⟨hmin, hmax⟩ := f.range_word
  have hword : ((-absentRaw : ℤ) : ℚ) ≤ magnitude := by
    refine le_trans ?_ h
    calc ((-absentRaw : ℤ) : ℚ) = 2 ^ (31 : Int) := by norm_num [absentRaw]
      _ ≤ 2 ^ (1024 : Int) := zpow_le_zpow_right₀ one_le_two (by omega)
  have hround := round_mono hword
  rw [round_intCast] at hround
  rw [roundHalfAway_withSign negative ((zpow_pos two_pos _).le.trans h)]
  unfold clamp
  cases negative with
  | true => rw [if_pos rfl, if_pos rfl, if_pos (by omega)]
  | false =>
    rw [if_neg Bool.false_ne_true, if_neg Bool.false_ne_true, if_neg (by omega), if_pos (by omega)]

/-- Nothing is lost between the steps. -/
theorem encodeStepwise_eq (f : Format) (x : Binary64) : f.encodeStepwise x = f.encode x := by
  have hshift : f.shift < 1024 := by cases f <;> decide
  unfold encodeStepwise
  cases hreading : x.reading with
  | notANumber =>
    have hnan : x.isNaN = true := decide_eq_true hreading
    rw [if_pos hnan, f.encode_of_isNaN hnan]
  | infinite negative =>
    have hinfinite := Binary64.reading_infinity negative
    have hnumber : x.isNaN = false := decide_eq_false (by rw [hreading]; exact nofun)
    rw [hnumber, if_neg Bool.false_ne_true, Binary64.mul_two_pow_of_infinite hreading hshift,
      Binary64.nearestWhole_of_infinite hinfinite, f.holdWhole_of_infinite hinfinite, f.encode_of_infinite hreading]
  | finite negative significand power =>
    have hrat := Binary64.rat?_of_reading hreading
    have hnumber : x.isNaN = false := decide_eq_false (by rw [hreading]; exact nofun)
    rw [encode_of_rat? hrat, hnumber, if_neg Bool.false_ne_true]
    generalize withSign negative (significand * 2 ^ power) = q at hrat
    rcases Binary64.mul_two_pow hrat hshift with hscaled | ⟨negative, magnitude, hmul, hsigned, hlarge⟩
    · exact f.holdWhole_nearestWhole hscaled
    · have hinfinite := Binary64.reading_infinity negative
      rw [hmul, Binary64.nearestWhole_of_infinite hinfinite, f.holdWhole_of_infinite hinfinite, ← hsigned,
        f.clamp_of_huge negative hlarge]

end Stepwise

section Order

variable {f : Format} {x : Binary64}

/-- The raw value at a place among the numbers. -/
def rawAt (f : Format) : WithBot (WithTop ℚ) → Int
  | none => f.rawMin
  | some none => f.rawMax
  | some (some q) => max f.rawMin (min f.rawMax (roundHalfAway (q * 2 ^ f.shift)))

theorem raw_encode {place : WithBot (WithTop ℚ)} (h : x.place? = some place) : (f.encode x).raw = f.rawAt place := by
  unfold Binary64.place? at h
  cases hreading : x.reading with
  | notANumber =>
    rw [hreading] at h
    cases h
  | infinite negative =>
    rw [hreading] at h
    unfold encode
    rw [hreading]
    cases negative <;> cases h <;> rfl
  | finite negative significand power =>
    have hrat := Binary64.rat?_of_reading hreading
    rw [hreading] at h
    cases h
    rw [encode_of_rat? hrat, raw_clamp]
    rfl

theorem rawAt_mem (f : Format) (place : WithBot (WithTop ℚ)) : f.rawMin ≤ f.rawAt place ∧ f.rawAt place ≤ f.rawMax := by
  have hrange := f.rawMin_lt_rawMax
  unfold rawAt
  split <;> omega

theorem rawAt_mono (f : Format) : Monotone f.rawAt := by
  intro a b h
  cases a with
  | bot => exact (f.rawAt_mem b).1
  | coe a =>
    cases b with
    | bot => cases WithBot.not_coe_le_bot a h
    | coe b =>
      have h := WithBot.coe_le_coe.1 h
      cases b with
      | top => exact (f.rawAt_mem _).2
      | coe b =>
        cases a with
        | top => cases WithTop.not_top_le_coe b h
        | coe a =>
          have hscaled : a * 2 ^ f.shift ≤ b * 2 ^ f.shift :=
            mul_le_mul_of_nonneg_right (WithTop.coe_le_coe.1 h) (pow_pos two_pos _).le
          have hround := roundHalfAway_mono hscaled
          show max _ (min _ (roundHalfAway (a * 2 ^ f.shift))) ≤ max _ (min _ (roundHalfAway (b * 2 ^ f.shift)))
          omega

theorem exists_place (h : x.isNaN = false) : ∃ place, x.place? = some place := by
  unfold Binary64.isNaN at h
  unfold Binary64.place?
  cases hreading : x.reading with
  | notANumber =>
    rw [hreading] at h
    cases h
  | infinite negative => cases negative <;> exact ⟨_, rfl⟩
  | finite => exact ⟨_, rfl⟩

end Order

end Format

namespace Value

variable {f : Format}

theorem ofRaw_raw (v : Value f) : ofRaw v.raw = v := congrArg Value.mk (BitVec.ofInt_toInt ..)

theorem raw_ofRaw {raw : Int} (hlow : -2 ^ (f.bits - 1) ≤ raw) (hhigh : raw < 2 ^ (f.bits - 1)) :
    (ofRaw raw : Value f).raw = raw := by
  have hbits : 0 < f.bits := by cases f <;> decide
  exact BitVec.toInt_ofInt_eq_self hbits hlow hhigh

theorem raw_ofRaw_of_mem {raw : Int} (hlow : f.rawMin ≤ raw) (hhigh : raw ≤ f.rawMax) :
    (ofRaw raw : Value f).raw = raw := by
  have hmin : -2 ^ (f.bits - 1) ≤ f.rawMin := by cases f <;> decide
  have hmax : f.rawMax < 2 ^ (f.bits - 1) := by cases f <;> decide
  exact raw_ofRaw (hmin.trans hlow) (hhigh.trans_lt hmax)

theorem raw_absent (h : f.hasAbsent) : (absent : Value f).raw = absentRaw := by
  cases f with
  | shortFpreal => cases h
  | _ => rfl

/-- A value holds what its format encodes. -/
theorem raw_encode (f : Format) (x : Binary64) : (encode x : Value f × Bool).1.raw = (f.encode x).raw := by
  show (ofRaw (f.encode x).raw : Value f).raw = (f.encode x).raw
  cases hnan : x.isNaN with
  | false =>
    obtain ⟨place, hplace⟩ := Format.exists_place hnan
    obtain ⟨hlow, hhigh⟩ := f.rawAt_mem place
    rw [Format.raw_encode hplace, raw_ofRaw_of_mem hlow hhigh]
  | true =>
    rw [f.encode_of_isNaN hnan]
    cases f <;> rfl

theorem encode_toBinary64 {v : Value f} (hlow : f.rawMin ≤ v.raw) (hhigh : v.raw ≤ f.rawMax) :
    ∃ y, v.toBinary64 = some y ∧ encode y = (v, false) := by
  obtain ⟨y, hdecode, -, hencode⟩ := Format.encode_decode hlow hhigh
  refine ⟨y, hdecode, ?_⟩
  unfold encode
  rw [hencode]
  dsimp only
  rw [ofRaw_raw]

theorem isAbsent_ofOption (h : f.hasAbsent) (x : Option Binary64) :
    (ofOption x : Value f).isAbsent = true ↔ ∀ y ∈ x, y.isNaN = true := by
  unfold isAbsent
  rw [decide_eq_true_iff]
  cases x with
  | none => simp [ofOption, raw_absent h]
  | some y =>
    rw [show (ofOption (some y) : Value f) = (encode y).1 from rfl, raw_encode]
    simp only [Option.mem_some_iff, forall_eq']
    constructor
    · intro habsent
      by_contra hnan
      obtain ⟨place, hplace⟩ := Format.exists_place (Bool.eq_false_iff.2 hnan)
      rw [Format.raw_encode hplace] at habsent
      exact absurd f.range_word.1 (habsent ▸ Int.not_lt.2 (f.rawAt_mem place).1)
    · intro hnan
      rw [f.encode_of_isNaN hnan, if_pos h]

end Value

/-- Encoding is correct rounding with saturation. A NaN gives the absent pattern; any other double the
nearest multiple of the resolution, halves away from zero, held in the range, and whether it lay
outside. So encoding is monotone and never gives the absent pattern, decoding what did not saturate is
off by half the resolution at most, and what a format holds is encoded as itself. The same holds of
values that know their format, and of the arithmetic of doubles. -/
theorem encoding_spec (f : Format) :
    (∀ x : Binary64, x.isNaN → f.encode x = ⟨if f.hasAbsent then absentRaw else 0, false⟩) ∧
    (∀ x negative, x.reading = .infinite negative →
      f.encode x = ⟨if negative then f.rawMin else f.rawMax, true⟩) ∧
    (∀ x q, x.rat? = some q →
      (f.encode x).raw = max f.rawMin (min f.rawMax (roundHalfAway (q * 2 ^ f.shift))) ∧
      ((f.encode x).saturated = true ↔
        roundHalfAway (q * 2 ^ f.shift) < f.rawMin ∨ f.rawMax < roundHalfAway (q * 2 ^ f.shift)) ∧
      ((f.encode x).saturated = false → ∃ y p, f.decode (f.encode x).raw = some y ∧ y.rat? = some p ∧
        |p - q| ≤ 1 / 2 ^ (f.shift + 1))) ∧
    (∀ x : Binary64, x.isNaN = false →
      f.rawMin ≤ (f.encode x).raw ∧ (f.encode x).raw ≤ f.rawMax ∧ (f.encode x).raw ≠ absentRaw) ∧
    (∀ x y a b, x.place? = some a → y.place? = some b → a ≤ b → (f.encode x).raw ≤ (f.encode y).raw) ∧
    (∀ raw, f.rawMin ≤ raw → raw ≤ f.rawMax →
      ∃ y, f.decode raw = some y ∧ y.rat? = some ((raw : ℚ) / 2 ^ f.shift) ∧ f.encode y = ⟨raw, false⟩) ∧
    (∀ x, (Value.encode x : Value f × Bool).1.raw = (f.encode x).raw ∧
      (Value.encode x : Value f × Bool).2 = (f.encode x).saturated) ∧
    (∀ v : Value f, f.rawMin ≤ v.raw → v.raw ≤ f.rawMax →
      ∃ y, v.toBinary64 = some y ∧ Value.encode y = (v, false)) ∧
    (f.hasAbsent → (Value.absent : Value f).toBinary64 = none ∧
      ∀ x, (Value.ofOption x : Value f).isAbsent = true ↔ ∀ y ∈ x, y.isNaN = true) ∧
    ∀ x, f.encodeStepwise x = f.encode x := by
  refine ⟨fun x => f.encode_of_isNaN, fun x negative => f.encode_of_infinite, ?_, ?_, ?_,
    fun raw => Format.encode_decode, fun x => ⟨Value.raw_encode f x, rfl⟩, fun v => Value.encode_toBinary64, ?_,
    f.encodeStepwise_eq⟩
  · intro x q hrat
    refine ⟨?_, ?_, Format.decode_encode hrat⟩
    · rw [Format.encode_of_rat? hrat, Format.raw_clamp]
    · rw [Format.encode_of_rat? hrat, Format.saturated_clamp]
  · intro x hnan
    obtain ⟨place, hplace⟩ := Format.exists_place hnan
    obtain ⟨hlow, hhigh⟩ := f.rawAt_mem place
    rw [Format.raw_encode hplace]
    exact ⟨hlow, hhigh, (f.range_word.1.trans_le hlow).ne'⟩
  · intro x y a b hx hy hle
    rw [Format.raw_encode hx, Format.raw_encode hy]
    exact f.rawAt_mono hle
  · intro habsent
    refine ⟨?_, Value.isAbsent_ofOption habsent⟩
    unfold Value.toBinary64 Format.decode
    rw [Value.raw_absent habsent, habsent]
    rfl

/-- One and a half steps below zero, a weight is two steps below. -/
theorem encoding_spec_weight_tie :
    let x := Binary64.ofRatio true 3 65536
    x.rat? = some (-3 / 65536) ∧ Format.weight.encode x = ⟨-2, false⟩ ∧
      (∃ y p, Format.weight.decode (-2) = some y ∧ y.rat? = some p ∧ |p - -3 / 65536| ≤ 1 / 2 ^ 16) ∧
      ∃ y, Format.weight.decode (-2) = some y ∧ Format.weight.encode y = ⟨-2, false⟩ := by
  intro x
  have hrat : x.rat? = some (-3 / 65536) := by
    have hreading : x.reading = .finite true (3 * 2 ^ 51) (-67) := by decide +kernel
    rw [Binary64.rat?_of_reading hreading]
    norm_num [withSign]
  have hencode : Format.weight.encode x = ⟨-2, false⟩ := by decide +kernel
  obtain ⟨-, -, hfinite, -, -, hraw, -⟩ := encoding_spec .weight
  obtain ⟨y, hdecode, -, hround⟩ := hraw (-2) (by decide) (by decide)
  obtain ⟨-, -, hclose⟩ := hfinite x _ hrat
  rw [hencode] at hclose
  exact ⟨hrat, hencode, hclose rfl, y, hdecode, hround⟩

end Fixed

end PerceptronMesh

import Mathlib.Algebra.Order.Field.Power
import Mathlib.Algebra.Order.Floor.Semifield
import Mathlib.Algebra.Order.Round
import Mathlib.Data.Rat.Floor
import PerceptronMesh.Numeric.Binary64

/-!
Doubles as rational numbers. A quotient that is `significand * 2 ^ power` with a significand of at
most 53 digits and a power not below the smallest becomes the double of exactly that number, or
infinite if no double is as large. So scaling by a power of two and rounding to a whole number are
exact.
-/

namespace PerceptronMesh.Numeric

def withSign (negative : Bool) (magnitude : ℚ) : ℚ := if negative then -magnitude else magnitude

theorem two_pow_mul_zpow (n : Nat) (power : Int) : (2 : ℚ) ^ n * 2 ^ power = 2 ^ (power + n) := by
  rw [zpow_add₀ two_ne_zero, zpow_natCast, mul_comm]

theorem magnitude_nonneg (significand : Nat) (power : Int) : (0 : ℚ) ≤ significand * 2 ^ power :=
  mul_nonneg (Nat.cast_nonneg _) (zpow_pos two_pos _).le

/-- A number of at most 53 digits is less than the power of two that follows its first place. -/
theorem magnitude_lt {significand : Nat} (h : significand < 2 ^ 53) (power : Int) :
    (significand * 2 ^ power : ℚ) < 2 ^ (power + 53) := by
  calc (significand * 2 ^ power : ℚ) < 2 ^ 53 * 2 ^ power := by
        gcongr
        exact_mod_cast h
    _ = 2 ^ (power + 53) := two_pow_mul_zpow 53 power

theorem withSign_mul_two_pow (negative : Bool) (significand : Nat) (power : Int) (shift : Nat) :
    withSign negative (significand * 2 ^ power) * (2 : ℚ) ^ shift =
      withSign negative (significand * 2 ^ (power + shift)) := by
  rw [← two_pow_mul_zpow]
  unfold withSign
  split <;> ring

section Scale

variable {num den : Nat}

theorem scaleRatio_den_pos (num : Nat) (hden : 0 < den) (power : Int) : 0 < (scaleRatio num den power).2 :=
  Nat.mul_pos hden (Nat.pow_pos Nat.two_pos)

theorem scaleRatio_div (num : Nat) (hden : 0 < den) (power : Int) :
    ((scaleRatio num den power).1 : ℚ) / (scaleRatio num den power).2 = num / den * 2 ^ power := by
  have hden : (den : ℚ) ≠ 0 := Nat.cast_ne_zero.2 hden.ne'
  unfold scaleRatio
  obtain ⟨n, rfl | rfl⟩ := power.eq_nat_or_neg
  · simp only [Int.toNat_natCast, Int.toNat_neg_natCast, Nat.pow_eq, pow_zero, mul_one, zpow_natCast]
    push_cast
    field_simp
  · simp only [neg_neg, Int.toNat_natCast, Int.toNat_neg_natCast, Nat.pow_eq, pow_zero, mul_one, zpow_neg,
      zpow_natCast]
    push_cast
    field_simp

theorem scaleRatio_neg_lt_iff (num : Nat) (hden : 0 < den) (power : Int) :
    (scaleRatio num den (-power)).1 < (scaleRatio num den (-power)).2 ↔ (num / den : ℚ) < 2 ^ power := by
  have hscaled : (0 : ℚ) < (scaleRatio num den (-power)).2 := Nat.cast_pos.2 (scaleRatio_den_pos num hden _)
  rw [← Nat.cast_lt (α := ℚ), ← div_lt_one hscaled, scaleRatio_div num hden, zpow_neg, ← div_eq_mul_inv,
    div_lt_one (zpow_pos two_pos _)]

theorem scaleByPower_eq (num : Nat) (power : Int) : scaleByPower num power = scaleRatio num 1 power := by
  unfold scaleByPower scaleRatio
  rw [Nat.one_mul]

theorem scaleByPower_den_pos (num : Nat) (power : Int) : 0 < (scaleByPower num power).2 := by
  rw [scaleByPower_eq]
  exact scaleRatio_den_pos num Nat.one_pos power

theorem scaleByPower_div (num : Nat) (power : Int) :
    ((scaleByPower num power).1 : ℚ) / (scaleByPower num power).2 = num * 2 ^ power := by
  rw [scaleByPower_eq, scaleRatio_div num Nat.one_pos, Nat.cast_one, div_one]

end Scale

namespace Binary64

/-- The number that a finite double stands for. -/
def rat? (x : Binary64) : Option ℚ :=
  match x.reading with
  | .finite negative significand power => some (withSign negative (significand * 2 ^ power))
  | _ => none

theorem rat?_of_reading {x : Binary64} {negative : Bool} {significand : Nat} {power : Int}
    (h : x.reading = .finite negative significand power) :
    x.rat? = some (withSign negative (significand * 2 ^ power)) := by
  unfold rat?
  rw [h]

theorem reading_infinity (negative : Bool) : (infinity negative).reading = .infinite negative := by
  cases negative <;> rfl

theorem reading_zero (negative : Bool) : (zero negative).reading = .finite negative 0 (-1074) := by
  cases negative <;> rfl

theorem reading_ofMagnitude (negative : Bool) {exponent fraction : Nat} (hexponent : exponent < 2047)
    (hfraction : fraction < 2 ^ 52) :
    (ofMagnitude negative (exponent * 2 ^ 52 + fraction)).reading =
      if exponent = 0 then .finite negative fraction (-1074)
      else .finite negative (2 ^ 52 + fraction) (exponent - 1075) := by
  have hbits : (ofMagnitude negative (exponent * 2 ^ 52 + fraction)).bits.toNat =
      (if negative then 2 ^ 63 else 0) + (exponent * 2 ^ 52 + fraction) := by
    unfold ofMagnitude
    rw [UInt64.toNat_ofNat', Nat.pow_eq]
    apply Nat.mod_eq_of_lt
    split <;> omega
  have hnegative : (ofMagnitude negative (exponent * 2 ^ 52 + fraction)).isNegative = negative := by
    unfold isNegative
    rw [hbits, Nat.pow_eq]
    cases negative
    · simp
      omega
    · simp
  have hfield : (ofMagnitude negative (exponent * 2 ^ 52 + fraction)).exponentField = exponent := by
    unfold exponentField
    rw [hbits, Nat.pow_eq, Nat.pow_eq]
    split <;> omega
  have hlow : (ofMagnitude negative (exponent * 2 ^ 52 + fraction)).fractionField = fraction := by
    unfold fractionField
    rw [hbits, Nat.pow_eq]
    split <;> omega
  unfold reading
  rw [hfield, hlow, hnegative, if_neg hexponent.ne, Nat.pow_eq]

/-- The digits and the place of a finite double. -/
theorem reading_finite {x : Binary64} {negative : Bool} {significand : Nat} {power : Int}
    (h : x.reading = .finite negative significand power) : significand < 2 ^ 53 ∧ -1074 ≤ power ∧ power ≤ 971 := by
  have hfraction : x.fractionField < 2 ^ 52 := Nat.mod_lt _ (Nat.pow_pos Nat.two_pos)
  have hexponent : x.exponentField < 2 ^ 11 := Nat.mod_lt _ (Nat.pow_pos Nat.two_pos)
  unfold reading at h
  rw [Nat.pow_eq] at h
  split at h
  · split at h <;> cases h
  · split at h <;> cases h <;> omega

theorem finite_lt {x : Binary64} {negative : Bool} {significand : Nat} {power : Int}
    (h : x.reading = .finite negative significand power) : (significand * 2 ^ power : ℚ) < 2 ^ (1024 : Int) := by
  obtain ⟨hsignificand, -, hpower⟩ := reading_finite h
  exact (magnitude_lt hsignificand power).trans_le (zpow_le_zpow_right₀ one_le_two (by omega))

section Ratio

variable {num den : Nat}

/-- The difference of the leading places is the leading place of a quotient or the one above. -/
theorem log2_sub_le (hnum : 0 < num) (hden : 0 < den) :
    (2 : ℚ) ^ ((num.log2 : Int) - den.log2 - 1) ≤ num / den ∧
      (num / den : ℚ) < 2 ^ ((num.log2 : Int) - den.log2 + 1) := by
  have hdenQ : (0 : ℚ) < den := Nat.cast_pos.2 hden
  have hnumLow : (2 : ℚ) ^ num.log2 ≤ num := by exact_mod_cast Nat.log2_self_le hnum.ne'
  have hnumHigh : (num : ℚ) < 2 ^ (num.log2 + 1) := by exact_mod_cast Nat.lt_log2_self
  have hdenLow : (2 : ℚ) ^ den.log2 ≤ den := by exact_mod_cast Nat.log2_self_le hden.ne'
  have hdenHigh : (den : ℚ) < 2 ^ (den.log2 + 1) := by exact_mod_cast Nat.lt_log2_self
  have hlow : (2 : ℚ) ^ ((num.log2 : Int) - den.log2 - 1) ≤ num / den := by
    rw [le_div_iff₀ hdenQ]
    calc (2 : ℚ) ^ ((num.log2 : Int) - den.log2 - 1) * den
        ≤ 2 ^ ((num.log2 : Int) - den.log2 - 1) * 2 ^ (den.log2 + 1) := by gcongr
      _ = 2 ^ num.log2 := by
        rw [← zpow_natCast, ← zpow_natCast, ← zpow_add₀ two_ne_zero]
        congr 1
        push_cast
        ring
      _ ≤ num := hnumLow
  have hhigh : (num / den : ℚ) < 2 ^ ((num.log2 : Int) - den.log2 + 1) := by
    rw [div_lt_iff₀ hdenQ]
    calc (num : ℚ) < 2 ^ (num.log2 + 1) := hnumHigh
      _ = 2 ^ ((num.log2 : Int) - den.log2 + 1) * 2 ^ den.log2 := by
        rw [← zpow_natCast, ← zpow_natCast, ← zpow_add₀ two_ne_zero]
        congr 1
        push_cast
        ring
      _ ≤ 2 ^ ((num.log2 : Int) - den.log2 + 1) * den := by gcongr
  exact ⟨hlow, hhigh⟩

theorem leadingPower_le (hnum : 0 < num) (hden : 0 < den) :
    (2 : ℚ) ^ leadingPower num den ≤ num / den ∧ (num / den : ℚ) < 2 ^ (leadingPower num den + 1) := by
  obtain ⟨hlow, hhigh⟩ := log2_sub_le hnum hden
  have hbelow := scaleRatio_neg_lt_iff num hden (num.log2 - den.log2)
  unfold leadingPower
  dsimp only
  split
  case isTrue h => exact ⟨hlow, by rw [sub_add_cancel]; exact hbelow.1 h⟩
  case isFalse h => exact ⟨not_lt.1 fun hlt => h (hbelow.2 hlt), hhigh⟩

theorem roundDiv_of_div_eq (tie : Tie) {n : Nat} (hden : 0 < den) (h : (num : ℚ) / den = n) :
    roundDiv tie num den = n := by
  have hnum : num = n * den := by
    rw [div_eq_iff (Nat.cast_ne_zero.2 hden.ne')] at h
    exact_mod_cast h
  rw [roundDiv_of_dvd tie hden ⟨n, by rw [hnum, Nat.mul_comm]⟩, hnum, Nat.mul_div_cancel _ hden]

variable {significand : Nat} {power : Int}

/-- A number of few digits is written with 53 of them, or with less at the smallest power. -/
theorem ofRatio_digits (negative : Bool) (hnum : 0 < num) (hden : 0 < den)
    (hvalue : (num / den : ℚ) = significand * 2 ^ power) (hsignificand : significand < 2 ^ 53)
    (hpower : -1074 ≤ power) : ∃ (place : Int) (digits : Nat), -1074 ≤ place ∧ digits < 2 ^ 53 ∧
      (place = -1074 ∨ 2 ^ 52 ≤ digits) ∧ (digits * 2 ^ place : ℚ) = num / den ∧
      ofRatio negative num den =
        if 2047 * 2 ^ 52 ≤ (place + 1074).toNat * 2 ^ 52 + digits then infinity negative
        else ofMagnitude negative ((place + 1074).toNat * 2 ^ 52 + digits) := by
  obtain ⟨hlow, hhigh⟩ := leadingPower_le hnum hden
  have hleading : leadingPower num den < power + 53 := by
    rw [hvalue] at hlow
    exact (zpow_lt_zpow_iff_right₀ one_lt_two).1 (hlow.trans_lt (magnitude_lt hsignificand power))
  generalize hplace : max (leadingPower num den - 52) (-1074) = place
  have hscaled : (num / den * 2 ^ (-place) : ℚ) = (significand * 2 ^ (power - place).toNat : Nat) := by
    have hexponent : power + -place = ((power - place).toNat : Int) := by omega
    rw [hvalue, mul_assoc, ← zpow_add₀ two_ne_zero, hexponent, zpow_natCast]
    push_cast
    rfl
  generalize significand * 2 ^ (power - place).toNat = digits at hscaled
  have hvalue : (digits * 2 ^ place : ℚ) = num / den := by
    rw [← hscaled, mul_assoc, ← zpow_add₀ two_ne_zero, neg_add_cancel, zpow_zero, mul_one]
  refine ⟨place, digits, by omega, ?_, ?_, hvalue, ?_⟩
  · have hlt : (digits : ℚ) < 2 ^ 53 := by
      rw [← hscaled, zpow_neg, ← div_eq_mul_inv, div_lt_iff₀ (zpow_pos two_pos _), ← zpow_natCast,
        ← zpow_add₀ two_ne_zero]
      exact hhigh.trans_le (zpow_le_zpow_right₀ one_le_two (by push_cast; omega))
    exact_mod_cast hlt
  · rcases Int.le_total (leadingPower num den - 52) (-1074) with hleft | hright
    · exact .inl (by omega)
    · have hle : (2 ^ 52 : ℚ) ≤ digits := by
        rw [← hscaled, zpow_neg, ← div_eq_mul_inv, le_div_iff₀ (zpow_pos two_pos _), ← zpow_natCast,
          ← zpow_add₀ two_ne_zero]
        exact (zpow_le_zpow_right₀ one_le_two (by push_cast; omega)).trans hlow
      exact .inr (by exact_mod_cast hle)
  · have hround : roundDiv .toEven (scaleRatio num den (-place)).1 (scaleRatio num den (-place)).2 = digits :=
      roundDiv_of_div_eq .toEven (scaleRatio_den_pos num hden _) ((scaleRatio_div num hden _).trans hscaled)
    unfold ofRatio
    rw [if_neg hnum.ne', hplace]
    dsimp only
    rw [hround, Nat.pow_eq]

/-- A number of few digits is a double, if it is not too large. -/
theorem ofRatio_of_lt (negative : Bool) (hden : 0 < den) (hvalue : (num / den : ℚ) = significand * 2 ^ power)
    (hsignificand : significand < 2 ^ 53) (hpower : -1074 ≤ power) (hlarge : (num / den : ℚ) < 2 ^ (1024 : Int)) :
    (ofRatio negative num den).rat? = some (withSign negative (num / den)) := by
  rcases Nat.eq_zero_or_pos num with rfl | hnum
  · unfold ofRatio
    rw [if_pos rfl, rat?_of_reading (reading_zero negative)]
    simp
  obtain ⟨place, digits, hplace, hdigits, hnormal, hexact, hratio⟩ :=
    ofRatio_digits negative hnum hden hvalue hsignificand hpower
  have hreading : (ofRatio negative num den).reading = .finite negative digits place := by
    rcases Nat.lt_or_ge digits (2 ^ 52) with hsmall | hlargeDigits
    · obtain rfl : place = -1074 := hnormal.resolve_right (Nat.not_le.2 hsmall)
      have hpattern := reading_ofMagnitude negative (show 0 < 2047 by omega) hsmall
      rw [hratio, if_neg (by omega), show (-1074 + 1074 : Int).toNat = 0 from rfl, hpattern, if_pos rfl]
    · have hbound : place < 972 := by
        have hlt : (2 : ℚ) ^ (place + 52) < 2 ^ (1024 : Int) := by
          calc (2 : ℚ) ^ (place + 52) = 2 ^ 52 * 2 ^ place := (two_pow_mul_zpow 52 place).symm
            _ ≤ digits * 2 ^ place := by
              gcongr
              exact_mod_cast hlargeDigits
            _ = num / den := hexact
            _ < 2 ^ (1024 : Int) := hlarge
        have hlt := (zpow_lt_zpow_iff_right₀ one_lt_two).1 hlt
        omega
      have hfield : (place + 1074).toNat + 1 < 2047 := by omega
      have hfraction : digits - 2 ^ 52 < 2 ^ 52 := by omega
      have hpattern := reading_ofMagnitude negative hfield hfraction
      have hsplit : (place + 1074).toNat * 2 ^ 52 + digits =
          ((place + 1074).toNat + 1) * 2 ^ 52 + (digits - 2 ^ 52) := by omega
      have hexponent : (((place + 1074).toNat + 1 : Nat) : Int) - 1075 = place := by omega
      rw [hratio, if_neg (by omega), hsplit, hpattern, if_neg (Nat.succ_ne_zero _), hexponent,
        Nat.add_sub_cancel' hlargeDigits]
  rw [rat?_of_reading hreading, hexact]

theorem ofRatio_of_ge (negative : Bool) (hden : 0 < den) (hvalue : (num / den : ℚ) = significand * 2 ^ power)
    (hsignificand : significand < 2 ^ 53) (hpower : -1074 ≤ power) (hlarge : (2 : ℚ) ^ (1024 : Int) ≤ num / den) :
    ofRatio negative num den = infinity negative := by
  have hnum : 0 < num := by
    rcases Nat.eq_zero_or_pos num with rfl | hnum
    · rw [Nat.cast_zero, zero_div] at hlarge
      exact absurd hlarge (not_le.2 (zpow_pos two_pos _))
    · exact hnum
  obtain ⟨place, digits, hplace, hdigits, hnormal, hexact, hratio⟩ :=
    ofRatio_digits negative hnum hden hvalue hsignificand hpower
  have hbound : (1024 : Int) < place + 53 := by
    rw [← hexact] at hlarge
    exact (zpow_lt_zpow_iff_right₀ one_lt_two).1 (hlarge.trans_lt (magnitude_lt hdigits place))
  have hdigits : 2 ^ 52 ≤ digits := hnormal.resolve_left (by omega)
  rw [hratio, if_pos (by omega)]

/-- An integer of at most 53 digits, as a multiple of a power of two. -/
theorem rat?_ofIntRatio {value : Int} (hvalue : value.natAbs < 2 ^ 53) {shift : Nat} (hshift : shift ≤ 1074) :
    (ofIntRatio value (2 ^ shift)).rat? = some ((value : ℚ) / 2 ^ shift) := by
  have hratio : ((value.natAbs : ℚ) / (2 ^ shift : Nat)) = value.natAbs * 2 ^ (-(shift : Int)) := by
    rw [zpow_neg, zpow_natCast, div_eq_mul_inv]
    push_cast
    rfl
  have hlarge : ((value.natAbs : ℚ) / (2 ^ shift : Nat)) < 2 ^ (1024 : Int) := by
    calc ((value.natAbs : ℚ) / (2 ^ shift : Nat)) ≤ value.natAbs := by
          apply div_le_self (Nat.cast_nonneg _)
          exact_mod_cast Nat.one_le_two_pow
      _ < 2 ^ (53 : Int) := by exact_mod_cast hvalue
      _ ≤ 2 ^ (1024 : Int) := zpow_le_zpow_right₀ one_le_two (by omega)
  have hsign : withSign (value < 0) value.natAbs = (value : ℚ) := by
    unfold withSign
    rcases Int.lt_or_le value 0 with hneg | hpos
    · rw [decide_eq_true hneg, if_pos rfl, Nat.cast_natAbs, abs_of_neg hneg]
      push_cast
      rw [neg_neg]
    · rw [decide_eq_false (Int.not_lt.2 hpos), if_neg Bool.false_ne_true, Nat.cast_natAbs, abs_of_nonneg hpos]
  unfold ofIntRatio
  rw [ofRatio_of_lt _ (Nat.two_pow_pos _) hratio hvalue (by omega) hlarge, ← hsign]
  unfold withSign
  split <;> push_cast <;> ring_nf

end Ratio

theorem wholePart_eq_floor (significand : Nat) (power : Int) :
    wholePart significand power = ⌊(significand : ℚ) * 2 ^ power⌋₊ := by
  unfold wholePart
  rw [← scaleByPower_div, Nat.floor_div_eq_div]

/-- Doubles other than NaN among the rational numbers, the infinities at their ends. -/
def place? (x : Binary64) : Option (WithBot (WithTop ℚ)) :=
  match x.reading with
  | .notANumber => none
  | .infinite true => some ⊥
  | .infinite false => some ⊤
  | .finite negative significand power =>
    some ((withSign negative (significand * 2 ^ power) : ℚ) : WithTop ℚ)

theorem place?_of_rat? {x : Binary64} {q : ℚ} (h : x.rat? = some q) :
    x.place? = some ((q : WithTop ℚ) : WithBot (WithTop ℚ)) := by
  unfold rat? at h
  split at h
  case h_1 hreading =>
    cases h
    unfold place?
    rw [hreading]
  case h_2 => cases h

end Binary64

/-- The integer nearest to a number, halves away from zero. -/
def roundHalfAway (q : ℚ) : ℤ := if q < 0 then -round (-q) else round q

theorem roundDiv_up_eq_div (num : Nat) {den : Nat} (hden : 0 < den) :
    roundDiv .up num den = (2 * num + den) / (2 * den) := by
  have hsplit : 2 * num + den = 2 * den * (num / den) + (2 * (num % den) + den) := by
    rw [Nat.mul_assoc]
    have hnum := Nat.div_add_mod num den
    omega
  have hmod := Nat.mod_lt num hden
  rw [hsplit, Nat.mul_add_div (by omega)]
  unfold roundDiv
  dsimp only
  split
  case isTrue hless =>
    have hnone : (2 * (num % den) + den) / (2 * den) = 0 := Nat.div_eq_of_lt (by omega)
    rw [hnone, Nat.add_zero]
  case isFalse hmore =>
    have hone : (2 * (num % den) + den) / (2 * den) = 1 := Nat.div_eq_of_lt_le (by omega) (by omega)
    rw [hone, ite_self]

theorem roundDiv_up_eq_round (num : Nat) {den : Nat} (hden : 0 < den) :
    (roundDiv .up num den : ℤ) = round ((num : ℚ) / den) := by
  have hdenQ : (0 : ℚ) < den := Nat.cast_pos.2 hden
  have hsum : (num : ℚ) / den + 1 / 2 = ((2 * num + den : Nat) : ℚ) / ((2 * den : Nat) : ℚ) := by
    push_cast
    field_simp
  rw [round_eq, hsum, Rat.floor_natCast_div_natCast, roundDiv_up_eq_div num hden]
  push_cast
  rfl

theorem round_nonneg {q : ℚ} (hq : 0 ≤ q) : 0 ≤ round q := by
  rw [round_eq, Int.floor_nonneg]
  linarith

theorem roundHalfAway_withSign (negative : Bool) {q : ℚ} (hq : 0 ≤ q) :
    roundHalfAway (withSign negative q) = if negative then -round q else round q := by
  unfold roundHalfAway withSign
  cases negative with
  | false => rw [if_neg Bool.false_ne_true, if_neg Bool.false_ne_true, if_neg (not_lt.2 hq)]
  | true =>
    rw [if_pos rfl, if_pos rfl]
    rcases hq.eq_or_lt with rfl | hpos
    · rw [neg_zero, if_neg (lt_irrefl _), round_zero, neg_zero]
    · rw [if_pos (neg_neg_of_pos hpos), neg_neg]

@[simp] theorem roundHalfAway_intCast (n : ℤ) : roundHalfAway n = n := by
  unfold roundHalfAway
  split
  · rw [← Int.cast_neg, round_intCast, neg_neg]
  · exact round_intCast n

theorem abs_roundHalfAway_sub (q : ℚ) : |(roundHalfAway q : ℚ) - q| ≤ 1 / 2 := by
  unfold roundHalfAway
  split
  · have hround := abs_sub_round (-q)
    rwa [Int.cast_neg, ← neg_add', abs_neg, ← sub_neg_eq_add, abs_sub_comm]
  · rw [abs_sub_comm]
    exact abs_sub_round q

theorem round_mono {p q : ℚ} (h : p ≤ q) : round p ≤ round q := by
  rw [round_eq, round_eq]
  exact Int.floor_le_floor (by linarith)

theorem roundHalfAway_mono {p q : ℚ} (h : p ≤ q) : roundHalfAway p ≤ roundHalfAway q := by
  unfold roundHalfAway
  split <;> split
  · exact neg_le_neg (round_mono (neg_le_neg h))
  · have hp := round_nonneg (neg_nonneg.2 (le_of_lt ‹p < 0›))
    have hq := round_nonneg (not_lt.1 ‹¬q < 0›)
    omega
  · linarith
  · exact round_mono h

namespace Binary64

/-- The double nearest to a product. -/
def mul (x y : Binary64) : Binary64 :=
  match x.reading, y.reading with
  | .notANumber, _ | _, .notANumber => nan
  | .infinite negative, .infinite negative' => infinity (negative != negative')
  | .infinite negative, .finite negative' significand _
  | .finite negative significand _, .infinite negative' =>
    if significand = 0 then nan else infinity (negative != negative')
  | .finite negative significand power, .finite negative' significand' power' =>
    let (num, den) := scaleByPower (significand * significand') (power + power')
    ofRatio (negative != negative') num den

/-- The whole double nearest to a double, halves away from zero. -/
def nearestWhole (x : Binary64) : Binary64 :=
  match x.reading with
  | .finite negative significand power =>
    let (num, den) := scaleByPower significand power
    ofRatio negative (roundDiv .up num den) 1
  | _ => x

def lt (x y : Binary64) : Bool :=
  match x.place?, y.place? with
  | some a, some b => a < b
  | _, _ => false

variable {x y : Binary64} {q r : ℚ} {negative : Bool} {significand : Nat} {power : Int}

theorem rat?_eq_some (h : x.rat? = some q) : ∃ negative significand power,
    x.reading = .finite negative significand power ∧ withSign negative (significand * 2 ^ power) = q := by
  unfold rat? at h
  split at h
  case h_1 hreading => exact ⟨_, _, _, hreading, Option.some.inj h⟩
  case h_2 => cases h

theorem lt_of_rat? (hx : x.rat? = some q) (hy : y.rat? = some r) : x.lt y = decide (q < r) := by
  unfold lt
  rw [place?_of_rat? hx, place?_of_rat? hy]
  simp only [WithBot.coe_lt_coe, WithTop.coe_lt_coe]

/-- A rounded number has no more digits than the number: it is the number or at most 52 digits are left. -/
theorem round_digits (hsignificand : significand < 2 ^ 53) {whole : Nat}
    (hround : (whole : ℤ) = round (significand * 2 ^ power : ℚ)) :
    (whole : ℚ) = significand * 2 ^ power ∨ whole ≤ 2 ^ 52 := by
  rcases Int.lt_or_le power 0 with hneg | hpos
  · right
    have hhalf : (significand * 2 ^ power : ℚ) ≤ 2 ^ 52 := by
      calc (significand * 2 ^ power : ℚ) ≤ 2 ^ (power + 53) := (magnitude_lt hsignificand power).le
        _ ≤ 2 ^ (52 : Int) := zpow_le_zpow_right₀ one_le_two (by omega)
        _ = 2 ^ 52 := zpow_natCast 2 52
    have hle := round_mono hhalf
    rw [← hround, show (2 ^ 52 : ℚ) = (2 ^ 52 : ℕ) by norm_num, round_natCast] at hle
    exact Int.ofNat_le.1 hle
  · obtain ⟨n, rfl⟩ := Int.eq_ofNat_of_zero_le hpos
    have hinteger : (significand * 2 ^ (n : Int) : ℚ) = ((significand * 2 ^ n : Nat) : ℚ) := by
      rw [zpow_natCast]
      push_cast
      rfl
    rw [hinteger, round_natCast] at hround
    exact .inl (by rw [hinteger, Int.ofNat_inj.1 hround])

theorem nearestWhole_of_rat? (h : x.rat? = some q) : x.nearestWhole.rat? = some (roundHalfAway q : ℚ) := by
  obtain ⟨negative, significand, power, hreading, rfl⟩ := rat?_eq_some h
  have hnonneg := magnitude_nonneg significand power
  obtain ⟨hsignificand, hlow, -⟩ := reading_finite hreading
  have hround := roundDiv_up_eq_round (scaleByPower significand power).1 (scaleByPower_den_pos significand power)
  rw [scaleByPower_div] at hround
  have hexact : x.nearestWhole =
      ofRatio negative (roundDiv .up (scaleByPower significand power).1 (scaleByPower significand power).2) 1 := by
    unfold nearestWhole
    rw [hreading]
  generalize roundDiv .up (scaleByPower significand power).1 (scaleByPower significand power).2 = whole at *
  have hresult : withSign negative (whole / (1 : Nat)) =
      (roundHalfAway (withSign negative (significand * 2 ^ power)) : ℚ) := by
    rw [roundHalfAway_withSign negative hnonneg, ← hround, Nat.cast_one, div_one]
    unfold withSign
    split <;> push_cast <;> rfl
  rw [hexact, ← hresult]
  have hone : (whole : ℚ) / (1 : Nat) = whole := by rw [Nat.cast_one, div_one]
  rcases round_digits hsignificand hround with hwhole | hwhole
  · rw [← hone] at hwhole
    exact ofRatio_of_lt negative Nat.one_pos hwhole hsignificand hlow (hwhole ▸ finite_lt hreading)
  · have hvalue : (whole : ℚ) / (1 : Nat) = whole * 2 ^ (0 : Int) := by rw [hone, zpow_zero, mul_one]
    have hlarge : (whole : ℚ) / (1 : Nat) < 2 ^ (1024 : Int) := by
      calc (whole : ℚ) / (1 : Nat) = whole * 2 ^ (0 : Int) := hvalue
        _ < 2 ^ (0 + 53 : Int) := magnitude_lt (by omega) 0
        _ ≤ 2 ^ (1024 : Int) := zpow_le_zpow_right₀ one_le_two (by omega)
    exact ofRatio_of_lt negative Nat.one_pos hvalue (by omega) (by omega) hlarge

theorem nearestWhole_of_infinite (h : x.reading = .infinite negative) : x.nearestWhole = x := by
  unfold nearestWhole
  rw [h]

theorem reading_ofNat_two_pow {shift : Nat} (hshift : shift < 1024) : ∃ significand power,
    (ofNat (2 ^ shift)).reading = .finite false significand power ∧
      (significand * 2 ^ power : ℚ) = 2 ^ shift := by
  have hvalue : ((2 ^ shift : Nat) : ℚ) / (1 : Nat) = (1 : Nat) * 2 ^ (shift : Int) := by
    rw [zpow_natCast]
    simp
  have hlarge : ((2 ^ shift : Nat) : ℚ) / (1 : Nat) < 2 ^ (1024 : Int) := by
    rw [hvalue, Nat.cast_one, one_mul]
    exact (zpow_lt_zpow_iff_right₀ one_lt_two).2 (by omega)
  have hrat := ofRatio_of_lt false Nat.one_pos hvalue (by decide) (by omega) hlarge
  obtain ⟨negative, significand, power, hreading, hsigned⟩ := rat?_eq_some hrat
  rw [hvalue, Nat.cast_one, one_mul, zpow_natCast] at hsigned
  have hpow : (0 : ℚ) < 2 ^ shift := pow_pos two_pos _
  have hnonneg := magnitude_nonneg significand power
  cases negative with
  | false => exact ⟨significand, power, hreading, hsigned⟩
  | true =>
    have hneg : -(significand * 2 ^ power : ℚ) = 2 ^ shift := hsigned
    linarith

/-- Scaling by a power of two loses no digit; a number scaled too far is infinite. -/
theorem mul_two_pow (h : x.rat? = some q) {shift : Nat} (hshift : shift < 1024) :
    (x.mul (ofNat (2 ^ shift))).rat? = some (q * 2 ^ shift) ∨
      ∃ negative magnitude, x.mul (ofNat (2 ^ shift)) = infinity negative ∧
        withSign negative magnitude = q * 2 ^ shift ∧ (2 : ℚ) ^ (1024 : Int) ≤ magnitude := by
  obtain ⟨negative, significand, power, hreading, rfl⟩ := rat?_eq_some h
  obtain ⟨hsignificand, hlow, -⟩ := reading_finite hreading
  obtain ⟨factor, factorPower, hfactor, hscale⟩ := reading_ofNat_two_pow hshift
  have hden := scaleByPower_den_pos (significand * factor) (power + factorPower)
  have hdiv := scaleByPower_div (significand * factor) (power + factorPower)
  have hproduct : ((significand * factor : Nat) : ℚ) * 2 ^ (power + factorPower) =
      significand * 2 ^ (power + shift) := by
    rw [zpow_add₀ two_ne_zero, zpow_add₀ two_ne_zero, zpow_natCast, ← hscale]
    push_cast
    ring
  have hmul : x.mul (ofNat (2 ^ shift)) =
      ofRatio negative (scaleByPower (significand * factor) (power + factorPower)).1
        (scaleByPower (significand * factor) (power + factorPower)).2 := by
    unfold mul
    rw [hreading, hfactor]
    dsimp only
    rw [Bool.bne_false]
  rw [hmul, withSign_mul_two_pow]
  rw [hproduct] at hdiv
  rcases lt_or_ge (significand * 2 ^ (power + shift) : ℚ) (2 ^ (1024 : Int)) with hless | hmore
  · left
    rw [ofRatio_of_lt negative hden hdiv hsignificand (by omega) (hdiv ▸ hless), hdiv]
  · exact .inr ⟨negative, _, ofRatio_of_ge negative hden hdiv hsignificand (by omega) (hdiv ▸ hmore), rfl, hmore⟩

theorem mul_two_pow_of_infinite (h : x.reading = .infinite negative) {shift : Nat} (hshift : shift < 1024) :
    x.mul (ofNat (2 ^ shift)) = infinity negative := by
  obtain ⟨factor, factorPower, hfactor, hscale⟩ := reading_ofNat_two_pow hshift
  have hpositive : factor ≠ 0 := by
    rintro rfl
    rw [Nat.cast_zero, zero_mul] at hscale
    exact (pow_pos two_pos _).ne hscale
  unfold mul
  rw [h, hfactor]
  dsimp only
  rw [if_neg hpositive, Bool.bne_false]

theorem truncate_of_rat? {n low high : ℤ} (h : x.rat? = some (n : ℚ)) :
    x.truncate low high = max low (min high n) := by
  obtain ⟨negative, significand, power, hreading, hn⟩ := rat?_eq_some h
  have hnonneg := magnitude_nonneg significand power
  have habs : (significand * 2 ^ power : ℚ) = n.natAbs := by
    rw [Nat.cast_natAbs, Int.cast_abs, ← hn]
    unfold withSign
    split
    · rw [abs_neg, abs_of_nonneg hnonneg]
    · rw [abs_of_nonneg hnonneg]
  unfold truncate
  rw [hreading]
  dsimp only
  rw [wholePart_eq_floor, habs, Nat.floor_natCast]
  cases negative with
  | false =>
    have hpos : 0 ≤ n := Int.cast_nonneg_iff.1 (hnonneg.trans_eq hn)
    rw [if_neg Bool.false_ne_true]
    omega
  | true =>
    have hneg : n ≤ 0 := Int.cast_nonpos.1 (hn.symm.trans_le (neg_nonpos.2 hnonneg))
    rw [if_pos rfl]
    omega

end Binary64

end PerceptronMesh.Numeric

/-!
Rounding of a quotient of natural numbers to a neighbouring natural number, and quotients written
with a fixed number of decimal places.
-/

namespace PerceptronMesh.Numeric

/-- Where a quotient goes that lies exactly halfway between two naturals. -/
inductive Tie where
  | toEven
  | up
deriving DecidableEq, Repr

/-- The natural number nearest to `num / den`; `tie` decides the halfway case.
    The denominator is assumed positive. -/
def roundDiv (tie : Tie) (num den : Nat) : Nat :=
  let quotient := num / den
  let twice := 2 * (num % den)
  if twice < den then quotient
  else if den < twice then quotient + 1
  else match tie with
    | .toEven => quotient + quotient % 2
    | .up => quotient + 1

/-- A nonnegative number `num * 2 ^ power` as a quotient of naturals. -/
def scaleByPower (num : Nat) (power : Int) : Nat × Nat :=
  (num * Nat.pow 2 power.toNat, Nat.pow 2 (-power).toNat)

/-- Numerators and denominators of `num / den * 2 ^ power`. -/
def scaleRatio (num den : Nat) (power : Int) : Nat × Nat :=
  (num * Nat.pow 2 power.toNat, den * Nat.pow 2 (-power).toNat)

theorem roundDiv_of_dvd (tie : Tie) {num den : Nat} (hden : 0 < den) (hdvd : den ∣ num) :
    roundDiv tie num den = num / den := by
  have hmod : num % den = 0 := Nat.mod_eq_zero_of_dvd hdvd
  simp [roundDiv, hmod, hden]

/-- The result is never further than half a unit from the quotient. -/
theorem roundDiv_error (tie : Tie) (num : Nat) {den : Nat} (hden : 0 < den) :
    2 * num ≤ 2 * den * roundDiv tie num den + den ∧
      2 * den * roundDiv tie num den ≤ 2 * num + den := by
  have hsplit : den * (num / den) + num % den = num := Nat.div_add_mod num den
  have hsmall : num % den < den := Nat.mod_lt num hden
  have key : ∀ q : Nat, (q = num / den ∧ 2 * (num % den) ≤ den) ∨
      (q = num / den + 1 ∧ den ≤ 2 * (num % den)) →
      2 * num ≤ 2 * den * q + den ∧ 2 * den * q ≤ 2 * num + den := by
    rintro q (⟨rfl, hle⟩ | ⟨rfl, hle⟩)
    · rw [Nat.mul_assoc]; omega
    · rw [Nat.mul_assoc, Nat.mul_add]; omega
  apply key
  unfold roundDiv
  dsimp only
  split
  · left; exact ⟨rfl, by omega⟩
  · split
    · right; exact ⟨rfl, by omega⟩
    · cases tie with
      | up => right; exact ⟨rfl, by omega⟩
      | toEven =>
        have hparity : num / den % 2 = 0 ∨ num / den % 2 = 1 := by omega
        rcases hparity with h | h
        · left; exact ⟨by simp [h], by omega⟩
        · right; exact ⟨by simp [h], by omega⟩

/-- How a quotient is written: its decimal places, the least width it is padded
    to on the left, and the halfway rule. -/
structure PlacesFormat where
  places : Nat
  width : Nat
  tie : Tie

/-- Digits of `n` with zeros in front up to `width`. -/
def paddedDigits (width n : Nat) : List Char :=
  let digits := Nat.toDigits 10 n
  List.replicate (width - digits.length) '0' ++ digits

/-- The quotient `num / den` as text. The format has at least one place. -/
def PlacesFormat.text (format : PlacesFormat) (num den : Nat) : String :=
  let unit := Nat.pow 10 format.places
  let scaled := roundDiv format.tie (num * unit) den
  let whole := Nat.toDigits 10 (scaled / unit)
  let fraction := paddedDigits format.places (scaled % unit)
  let body := whole ++ '.' :: fraction
  String.ofList (List.replicate (format.width - body.length) ' ' ++ body)

end PerceptronMesh.Numeric

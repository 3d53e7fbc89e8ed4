import PerceptronMesh.Numeric.Rounding

/-!
Double-precision numbers as bit patterns, with exact conversions from and to
quotients of integers.
-/

namespace PerceptronMesh.Numeric

/-- A double: sign bit, eleven exponent bits and 52 fraction bits. Equality of
    patterns is structural; `eq` is equality of the numbers. -/
structure Binary64 where
  bits : UInt64
deriving DecidableEq, Inhabited, Repr

/-- What a pattern stands for. A finite number is
    `± significand * 2 ^ power`. -/
inductive Reading where
  | notANumber
  | infinite (negative : Bool)
  | finite (negative : Bool) (significand : Nat) (power : Int)
deriving DecidableEq, Repr

namespace Binary64

def isNegative (x : Binary64) : Bool := Nat.pow 2 63 ≤ x.bits.toNat

def exponentField (x : Binary64) : Nat := x.bits.toNat / Nat.pow 2 52 % Nat.pow 2 11

def fractionField (x : Binary64) : Nat := x.bits.toNat % Nat.pow 2 52

def reading (x : Binary64) : Reading :=
  if x.exponentField = 2047 then
    if x.fractionField = 0 then .infinite x.isNegative else .notANumber
  else if x.exponentField = 0 then
    .finite x.isNegative x.fractionField (-1074)
  else
    .finite x.isNegative (Nat.pow 2 52 + x.fractionField) ((x.exponentField : Int) - 1075)

def isNaN (x : Binary64) : Bool := x.reading = .notANumber

def isFinite (x : Binary64) : Bool := x.exponentField ≠ 2047

/-- The pattern with a given sign and remaining 63 bits. -/
def ofMagnitude (negative : Bool) (magnitude : Nat) : Binary64 :=
  ⟨UInt64.ofNat ((if negative then Nat.pow 2 63 else 0) + magnitude)⟩

def nan : Binary64 := ofMagnitude false (2047 * Nat.pow 2 52 + Nat.pow 2 51)

def infinity (negative : Bool) : Binary64 := ofMagnitude negative (2047 * Nat.pow 2 52)

def zero (negative : Bool) : Binary64 := ofMagnitude negative 0

/-- The exponent of the highest binary digit of a positive quotient. -/
def leadingPower (num den : Nat) : Int :=
  let guess : Int := (num.log2 : Int) - (den.log2 : Int)
  let (scaledNum, scaledDen) := scaleRatio num den (-guess)
  if scaledNum < scaledDen then guess - 1 else guess

/-- The double nearest to `± num / den`, halves to the even neighbour, infinite
    from half a unit above the largest finite number on. The denominator is
    assumed positive. -/
def ofRatio (negative : Bool) (num den : Nat) : Binary64 :=
  if num = 0 then zero negative
  else
    let power := max (leadingPower num den - 52) (-1074)
    let (scaledNum, scaledDen) := scaleRatio num den (-power)
    let significand := roundDiv .toEven scaledNum scaledDen
    let magnitude := (power + 1074).toNat * Nat.pow 2 52 + significand
    if 2047 * Nat.pow 2 52 ≤ magnitude then infinity negative else ofMagnitude negative magnitude

/-- The double nearest to `value / den`. -/
def ofIntRatio (value : Int) (den : Nat) : Binary64 :=
  ofRatio (value < 0) value.natAbs den

def ofNat (n : Nat) : Binary64 := ofRatio false n 1

/-- Equality of numbers: both zeros are equal and a NaN equals nothing. -/
def eq (x y : Binary64) : Bool :=
  match x.reading, y.reading with
  | .notANumber, _ => false
  | _, .notANumber => false
  | .finite _ 0 _, .finite _ 0 _ => true
  | _, _ => x.bits = y.bits

/-- Equality of optional numbers, comparing present ones by `eq`. -/
def eqOption : Option Binary64 → Option Binary64 → Bool
  | none, none => true
  | some x, some y => x.eq y
  | _, _ => false

/-- The integer part of a finite number's magnitude. -/
def wholePart (significand : Nat) (power : Int) : Nat :=
  let (num, den) := scaleByPower significand power
  num / den

/-- Integer part toward zero, kept within `[low, high]`; a NaN gives 0. -/
def truncate (low high : Int) (x : Binary64) : Int :=
  match x.reading with
  | .notANumber => 0
  | .infinite negative => if negative then low else high
  | .finite negative significand power =>
    let whole : Int := wholePart significand power
    max low (min high (if negative then -whole else whole))

end Binary64

end PerceptronMesh.Numeric

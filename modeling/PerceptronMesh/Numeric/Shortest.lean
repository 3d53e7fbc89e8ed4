import PerceptronMesh.Numeric.Binary64

/-!
The shortest decimal text of a double, written without an exponent.

A decimal number stands for a double when it lies between the midpoints to the
double's neighbours, the midpoints counting when the significand is even.
-/

namespace PerceptronMesh.Numeric

/-- A positive double with the interval of reals that round to it, all four
    times their size over one denominator. -/
structure RoundingInterval where
  value : Nat
  low : Nat
  high : Nat
  den : Nat
  closed : Bool

namespace RoundingInterval

/-- The interval of `significand * 2 ^ power`. Below a power of two, except the
    smallest, the lower neighbour is only half as far away. -/
def ofFinite (significand : Nat) (power : Int) : RoundingInterval :=
  let below := if significand = Nat.pow 2 52 ∧ power ≠ -1074 then 1 else 2
  let scale := Nat.pow 2 power.toNat
  { value := 4 * significand * scale
    low := (4 * significand - below) * scale
    high := (4 * significand + 2) * scale
    den := 4 * Nat.pow 2 (-power).toNat
    closed := significand % 2 = 0 }

/-- Whether the real `num / den` rounds to the double, `den` being the given
    multiple of the interval's denominator. -/
def holds (i : RoundingInterval) (num factor : Nat) : Bool :=
  if i.closed then i.low * factor ≤ num && num ≤ i.high * factor
  else i.low * factor < num && num < i.high * factor

end RoundingInterval

/-- Decimal digits `digits * 10 ^ exponent`. -/
structure ShortDecimal where
  digits : Nat
  exponent : Int
deriving DecidableEq, Repr

/-- The multiple of `10 ^ exponent` nearest to the double, the upper one of two
    equally near, if a neighbour of the double on that grid stands for it. -/
def onGrid (i : RoundingInterval) (exponent : Int) : Option ShortDecimal :=
  let up := Nat.pow 10 exponent.toNat
  let down := Nat.pow 10 (-exponent).toNat
  let unit := i.den * up
  let num := i.value * down
  let lower := num / unit
  let fits := fun digits => i.holds (digits * unit) down
  let nearest := if 2 * (num % unit) < unit then lower else lower + 1
  let other := if nearest = lower then lower + 1 else lower
  if fits nearest && 0 < nearest then some ⟨nearest, exponent⟩
  else if fits other && 0 < other then some ⟨other, exponent⟩
  else none

/-- The decimal exponent `k` with `10 ^ (k - 1) ≤ num / den < 10 ^ k`, searched
    upward from `guess` through `fuel` candidates. -/
def decimalPoint (num den : Nat) (guess : Int) : Nat → Int
  | 0 => guess
  | fuel + 1 =>
    if num * Nat.pow 10 (-guess).toNat < den * Nat.pow 10 guess.toNat then guess
    else decimalPoint num den (guess + 1) fuel

/-- The first grid, from the coarsest on, that holds a decimal for the double. -/
def firstGrid (i : RoundingInterval) (point : Int) : Nat → Nat → Option ShortDecimal
  | _, 0 => none
  | count, fuel + 1 =>
    match onGrid i (point - count) with
    | some d => some d
    | none => firstGrid i point (count + 1) fuel

/-- The shortest decimal that rounds to a positive finite double; of those the
    nearest to it. -/
def shortest (significand : Nat) (power : Int) : ShortDecimal :=
  let i := RoundingInterval.ofFinite significand power
  let digits := (Nat.toDigits 10 (i.value / i.den)).length
  let start : Int := if i.den ≤ i.value then (digits : Int) else
    -((Nat.toDigits 10 (i.den / i.value)).length : Int)
  let point := decimalPoint i.value i.den start 4
  (firstGrid i point 1 17).getD ⟨i.value / i.den, 0⟩

/-- A natural number times a power of ten in positional notation. -/
def positional (d : ShortDecimal) : String :=
  let digits := (Nat.toDigits 10 d.digits)
  let point := (digits.length : Int) + d.exponent
  if 0 ≤ d.exponent then
    String.ofList (digits ++ List.replicate d.exponent.toNat '0')
  else if point ≤ 0 then
    String.ofList ('0' :: '.' :: List.replicate (-point).toNat '0' ++ digits)
  else
    String.ofList (digits.take point.toNat ++ '.' :: digits.drop point.toNat)

/-- The text of a double: the shortest decimal that reads back, in positional
    notation and without a point for whole numbers. -/
def plainText (x : Binary64) : String :=
  match x.reading with
  | .notANumber => "NaN"
  | .infinite negative => if negative then "-inf" else "inf"
  | .finite negative significand power =>
    let sign := if negative then "-" else ""
    if significand = 0 then sign ++ "0" else sign ++ positional (shortest significand power)

end PerceptronMesh.Numeric

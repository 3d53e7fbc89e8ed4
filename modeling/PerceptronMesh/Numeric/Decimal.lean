import PerceptronMesh.Numeric.Binary64
import PerceptronMesh.Numeric.Natural

/-!
Decimal text of real numbers and its nearest double.
-/

namespace PerceptronMesh.Numeric

/-- An unsigned decimal number `digits * 10 ^ exponent`. -/
structure Decimal where
  digits : Nat
  exponent : Int
deriving DecidableEq, Repr

namespace Decimal

/-- Reads a signed exponent; the sign is optional and a digit is needed. -/
def readExponent (cs : List Char) : Option Int :=
  let (negative, digits) := match cs with
    | '-' :: rest => (true, rest)
    | '+' :: rest => (false, rest)
    | _ => (false, cs)
  if digits.isEmpty || !digits.all isDigit then none
  else some (if negative then -(ofDigits digits : Int) else ofDigits digits)

/-- Reads digits with an optional point and exponent. At least one digit stands
    before or after the point. -/
def read (cs : List Char) : Option Decimal :=
  let whole := cs.takeWhile isDigit
  let afterWhole := cs.dropWhile isDigit
  let (fraction, afterFraction) := match afterWhole with
    | '.' :: rest => (rest.takeWhile isDigit, rest.dropWhile isDigit)
    | _ => ([], afterWhole)
  if whole.isEmpty && fraction.isEmpty then none
  else
    let digits := ofDigits (whole ++ fraction)
    let shift : Int := -(fraction.length : Int)
    match afterFraction with
    | [] => some ⟨digits, shift⟩
    | c :: rest =>
      if c = 'e' ∨ c = 'E' then
        (readExponent rest).map fun exponent => ⟨digits, exponent + shift⟩
      else none

/-- How many decimal digits a number has; 0 has none. -/
def digitCount (n : Nat) : Nat := if n = 0 then 0 else (Nat.toDigits 10 n).length

/-- The nearest double. Numbers far outside the range of doubles are settled by
    their count of digits, without forming the power of ten. -/
def toBinary64 (negative : Bool) (d : Decimal) : Binary64 :=
  if d.digits = 0 then .zero negative
  else
    let magnitude := (digitCount d.digits : Int) + d.exponent
    if 310 < magnitude then .infinity negative
    else if magnitude < -330 then .zero negative
    else
      .ofRatio negative (d.digits * Nat.pow 10 d.exponent.toNat) (Nat.pow 10 (-d.exponent).toNat)

end Decimal

def lowerAscii (c : Char) : Char :=
  if 'A' ≤ c ∧ c ≤ 'Z' then Char.ofNat (c.toNat + 32) else c

/-- Reads a real number: an optional sign, then a decimal number or one of the
    words `inf`, `infinity` and `nan` in any case. -/
def readReal (cs : List Char) : Option Binary64 :=
  let (negative, body) := match cs with
    | '-' :: rest => (true, rest)
    | '+' :: rest => (false, rest)
    | _ => (false, cs)
  match Decimal.read body with
  | some d => some (d.toBinary64 negative)
  | none =>
    let word := String.ofList (body.map lowerAscii)
    if word = "inf" ∨ word = "infinity" then some (.infinity negative)
    else if word = "nan" then some .nan
    else none

end PerceptronMesh.Numeric

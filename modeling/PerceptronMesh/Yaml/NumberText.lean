import PerceptronMesh.Numeric.Decimal
import PerceptronMesh.Yaml.QuotedText

/-!
Numbers as YAML writes them: integers in four bases, and reals with names for
the infinities and for what is no number.
-/

namespace PerceptronMesh.Yaml

open Numeric

/-- The value of a digit in a base up to 16. -/
def baseDigit? (base : Nat) (c : Char) : Option Nat :=
  (hexValue? c).filter (· < base)

/-- A number written with digits of a base, at least one. -/
def ofBase? (base : Nat) (digits : List Char) : Option Nat :=
  if digits.isEmpty then none
  else digits.foldlM (fun value c => (baseDigit? base c).map (base * value + ·)) 0

/-- Whether decimal digits start with a zero that does not stand alone. Such text
    is no number. -/
def hasLeadingZero (digits : List Char) : Bool :=
  1 < digits.length && digits.head? = some '0' && digits.all isDigit

/-- A natural number without a sign: decimal, or in base 16, 8 or 2 after its
    mark. -/
def readMagnitude (cs : List Char) : Option Nat :=
  match cs with
  | '0' :: 'x' :: digits => ofBase? 16 digits
  | '0' :: 'o' :: digits => ofBase? 8 digits
  | '0' :: 'b' :: digits => ofBase? 2 digits
  | _ => if hasLeadingZero cs then none else ofBase? 10 cs

/-- The text without a sign, and the sign. -/
def splitSign : List Char → Option Char × List Char
  | '+' :: rest => (some '+', rest)
  | '-' :: rest => (some '-', rest)
  | cs => (none, cs)

/-- Reads an integer, of any size. -/
def readInteger (cs : List Char) : Option Int :=
  let (sign, magnitude) := splitSign cs
  (readMagnitude magnitude).map fun n => if sign = some '-' then -(n : Int) else n

/-- The name of an infinity or of no number, after a point. -/
def readSpecial (cs : List Char) : Option Binary64 :=
  let (sign, body) := splitSign cs
  let word := String.ofList body
  if [".inf", ".Inf", ".INF"].contains word then some (.infinity (sign = some '-'))
  else if sign.isNone && [".nan", ".NaN", ".NAN"].contains word then some .nan
  else none

/-- Reads a real number; a decimal one has to be finite. -/
def readFloat (cs : List Char) : Option Binary64 :=
  (readSpecial cs).or ((readReal cs).filter Binary64.isFinite)

end PerceptronMesh.Yaml

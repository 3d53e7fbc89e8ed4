import PerceptronMesh.Numeric.Binary64

/-!
Fixed-point formats and their conversion from and to doubles: a number becomes
the nearest multiple of `2 ^ -shift`, halves away from zero, and is held inside
the format's range.
-/

namespace PerceptronMesh.Fixed

open Numeric

/-- The fixed-point representations used on the wire. -/
inductive Format where
  | fpreal
  | shortFpreal
  | activation
  | error
  | weight
deriving DecidableEq, Repr

/-- The pattern that 32-bit formats reserve for an absent value. -/
def absentRaw : Int := -Nat.pow 2 31

namespace Format

def all : List Format := [.fpreal, .shortFpreal, .activation, .error, .weight]

def name : Format → String
  | .fpreal => "fpreal"
  | .shortFpreal => "short_fpreal"
  | .activation => "activation_t"
  | .error => "error_t"
  | .weight => "weight_t"

def ofName? (name : String) : Option Format := all.find? (·.name == name)

/-- Number of fractional bits. -/
def shift : Format → Nat
  | .fpreal => 16
  | .shortFpreal => 15
  | .activation => 27
  | .error => 15
  | .weight => 15

/-- Bytes of the raw value on the wire. -/
def width : Format → Nat
  | .shortFpreal => 2
  | _ => 4

def bits (f : Format) : Nat := 8 * f.width

/-- Whether the format reserves `absentRaw`. -/
def hasAbsent : Format → Bool
  | .shortFpreal => false
  | _ => true

def rawMax : Format → Int
  | .shortFpreal => Nat.pow 2 15 - 1
  | .weight => 65535 * Nat.pow 2 15
  | _ => Nat.pow 2 31 - 1

def rawMin : Format → Int
  | .shortFpreal => -Nat.pow 2 15
  | .weight => -(65535 * Nat.pow 2 15)
  | _ => -Nat.pow 2 31 + 1

end Format

/-- Largest weight, smallest weight and weight resolution. -/
def weightMax : Binary64 := .ofNat 65535

def weightMin : Binary64 := .ofIntRatio (-65535) 1

def weightStep : Binary64 := .ofRatio false 1 (Nat.pow 2 15)

/-- A raw value and whether the number lay outside the range. -/
structure Encoded where
  raw : Int
  saturated : Bool
deriving DecidableEq, Repr

/-- `± significand * 2 ^ power` rounded to an integer, halves away from zero. -/
def roundAway (negative : Bool) (significand : Nat) (power : Int) : Int :=
  let (num, den) := scaleByPower significand power
  let magnitude : Int := roundDiv .up num den
  if negative then -magnitude else magnitude

namespace Format

def clamp (f : Format) (rounded : Int) : Encoded :=
  if rounded < f.rawMin then ⟨f.rawMin, true⟩
  else if f.rawMax < rounded then ⟨f.rawMax, true⟩
  else ⟨rounded, false⟩

/-- A NaN becomes the absent pattern, or 0 in a format without one. -/
def encode (f : Format) (x : Binary64) : Encoded :=
  match x.reading with
  | .notANumber => ⟨if f.hasAbsent then absentRaw else 0, false⟩
  | .infinite negative => ⟨if negative then f.rawMin else f.rawMax, true⟩
  | .finite negative significand power =>
    f.clamp (roundAway negative significand (power + f.shift))

/-- An absent value is encoded as a NaN is. -/
def encodeOption (f : Format) : Option Binary64 → Encoded
  | some x => f.encode x
  | none => f.encode .nan

def decode (f : Format) (raw : Int) : Option Binary64 :=
  if f.hasAbsent && raw = absentRaw then none
  else some (.ofIntRatio raw (Nat.pow 2 f.shift))

end Format

end PerceptronMesh.Fixed

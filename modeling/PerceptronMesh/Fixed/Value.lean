import PerceptronMesh.Fixed.Format
import PerceptronMesh.Numeric.Shortest
import PerceptronMesh.Wire.Word

/-!
Fixed-point quantities that know their format.
-/

namespace PerceptronMesh.Fixed

open Numeric Wire

/-- A raw value of one format, as the bits sent on the wire. -/
structure Value (f : Format) where
  bits : BitVec f.bits
deriving DecidableEq

abbrev FpReal := Value .fpreal
abbrev ShortFpReal := Value .shortFpreal
abbrev Activation := Value .activation
abbrev ErrorValue := Value .error
abbrev WeightValue := Value .weight

namespace Value

variable {f : Format}

/-- The low bits of an integer. -/
def ofRaw (raw : Int) : Value f := ⟨BitVec.ofInt f.bits raw⟩

def raw (v : Value f) : Int := v.bits.toInt

/-- The value nearest to a number, and whether it saturated. -/
def encode (x : Binary64) : Value f × Bool :=
  let encoded := f.encode x
  (ofRaw encoded.raw, encoded.saturated)

def ofBinary64 (x : Binary64) : Value f := (encode x).1

/-- The reserved absent value. Only for formats that have one. -/
def absent : Value f := ofRaw absentRaw

def ofOption : Option Binary64 → Value f
  | some x => ofBinary64 x
  | none => absent

def isAbsent (v : Value f) : Bool := v.raw = absentRaw

def toBinary64 (v : Value f) : Option Binary64 := f.decode v.raw

def text (v : Value f) : String :=
  match v.toBinary64 with
  | some x => plainText x
  | none => "NaN"

def bytes (v : Value f) : List UInt8 := littleEndian f.width v.bits.toNat

@[simp] theorem length_bytes (v : Value f) : v.bytes.length = f.width := by
  simp [bytes]

end Value

end PerceptronMesh.Fixed

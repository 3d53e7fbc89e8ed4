import PerceptronMesh.Fixed.Value

/-!
The fields of a payload. A payload's layout is the list of its fields; every
field has its natural width and padding is a field of its own.
-/

namespace PerceptronMesh.Wire

open Fixed

/-- One item of a payload with its value. -/
inductive Field where
  | u8 (value : UInt8)
  | u16 (value : UInt16)
  | u32 (value : UInt32)
  | i16 (value : Int16)
  | i32 (value : Int32)
  | fixed (format : Format) (value : Value format)
  | pad (count : Nat)
  | raw (data : List UInt8)

namespace Field

/-- A flag takes one byte. -/
def flag (b : Bool) : Field := .u8 (if b then 1 else 0)

def bytes : Field → List UInt8
  | .u8 value => littleEndian 1 value.toNat
  | .u16 value => littleEndian 2 value.toNat
  | .u32 value => littleEndian 4 value.toNat
  | .i16 value => littleEndian 2 value.toUInt16.toNat
  | .i32 value => littleEndian 4 value.toUInt32.toNat
  | .fixed _ value => value.bytes
  | .pad count => List.replicate count 0
  | .raw data => data

def width : Field → Nat
  | .u8 _ => 1
  | .u16 _ => 2
  | .u32 _ => 4
  | .i16 _ => 2
  | .i32 _ => 4
  | .fixed format _ => format.width
  | .pad count => count
  | .raw data => data.length

@[simp] theorem length_bytes (field : Field) : field.bytes.length = field.width := by
  cases field <;> simp [bytes, width]

end Field

/-- The bytes of fields written one after another. -/
def encode (fields : List Field) : List UInt8 := fields.flatMap Field.bytes

@[simp] theorem encode_nil : encode [] = [] := rfl

@[simp] theorem encode_append (xs ys : List Field) :
    encode (xs ++ ys) = encode xs ++ encode ys := by
  simp [encode]

end PerceptronMesh.Wire

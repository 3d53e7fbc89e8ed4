import PerceptronMesh.Describe.Number
import PerceptronMesh.Fixed.Value

/-!
JSON descriptions of fixed-point formats and of numbers in them.
-/

namespace PerceptronMesh.Fixed

open Numeric

def Format.describe (f : Format) : Json := .object [
  ("shift", .nat f.shift), ("bits", .nat f.bits), ("has_nan", .bool f.hasAbsent),
  ("raw_min", .int f.rawMin), ("raw_max", .int f.rawMax), ("name", .string f.name),
  ("wf", .list Binary64.describe [weightMax, weightMin, weightStep])]

/-- A number encoded in a format, as a raw value and as a value of the format. -/
def Format.describeEncoding (f : Format) (x : Option Binary64) : Json :=
  let encoded := f.encodeOption x
  let (value, saturated) := (Value.encode (x.getD .nan) : Value f × Bool)
  .object [
    ("raw", .int encoded.raw), ("saturated", .bool encoded.saturated),
    ("typed", .object [
      ("raw", .int value.raw), ("saturated", .bool saturated),
      ("value", describeReal? value.toBinary64), ("text", .string value.text),
      ("bytes", describeBytes value.bytes)]),
    ("absent", if f.hasAbsent then .bool (Value.ofOption x : Value f).isAbsent else .null)]

/-- The number of a raw value, and the value of the format with its low bits. -/
def Format.describeDecoding (f : Format) (raw : Int) : Json :=
  let value : Value f := .ofRaw raw
  .object [
    ("value", describeReal? (f.decode raw)), ("text", .string value.text),
    ("bytes", describeBytes value.bytes)]

end PerceptronMesh.Fixed

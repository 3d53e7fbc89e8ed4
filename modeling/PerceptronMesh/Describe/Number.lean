import PerceptronMesh.Graph.Checksum
import PerceptronMesh.Json.Value
import PerceptronMesh.Numeric.Binary64

/-!
Exact JSON descriptions of numbers and bytes.
-/

namespace PerceptronMesh

open Numeric

/-- The sixteen hexadecimal digits of a double; all NaNs look alike. -/
def Numeric.Binary64.describe (x : Binary64) : Json :=
  if x.isNaN then .string "nan" else .string (checksumText x.bits)

def describeReal? (x : Option Binary64) : Json := .option Binary64.describe x

def describeReals? (xs : List (Option Binary64)) : Json := .list describeReal? xs

def describeNats (ns : List Nat) : Json := .list .nat ns

def describeWords (ws : List UInt32) : Json := .list (fun w => .nat w.toNat) ws

/-- Two hexadecimal digits a byte. -/
def describeBytes (bytes : List UInt8) : Json :=
  .string (String.ofList (bytes.flatMap fun b =>
    [Json.hexDigit (b.toNat / 16), Json.hexDigit (b.toNat % 16)]))

end PerceptronMesh

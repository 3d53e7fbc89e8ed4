import PerceptronMesh.Wire.Word

/-!
Reading little-endian payloads. A read that does not fit reports where it stood
and leaves the cursor there.
-/

namespace PerceptronMesh

/-- Why a payload cannot be read. -/
inductive WireError where
  | truncated (offset needed available : Nat)
  | invalidCode (field : String) (code : Nat)
deriving DecidableEq, Repr

def WireError.message : WireError → String
  | .truncated offset needed available =>
    s!"payload truncated at offset {offset}: needed {needed} bytes, {available} available"
  | .invalidCode field code => s!"invalid code {code} for field '{field}'"

namespace Wire

/-- A cursor: how many bytes have been read and the bytes still to come. -/
structure Reader where
  position : Nat
  rest : List UInt8
deriving DecidableEq, Repr

namespace Reader

def ofBytes (bytes : List UInt8) : Reader := ⟨0, bytes⟩

def remaining (r : Reader) : Nat := r.rest.length

/-- The next `count` bytes. -/
def take (r : Reader) (count : Nat) : Except WireError (List UInt8 × Reader) :=
  let bytes := r.rest.take count
  if bytes.length < count then .error (.truncated r.position count r.remaining)
  else .ok (bytes, ⟨r.position + count, r.rest.drop count⟩)

/-- The next `width` bytes as an unsigned number. -/
def word (r : Reader) (width : Nat) : Except WireError (Nat × Reader) :=
  (r.take width).map fun (bytes, r) => (ofLittleEndian bytes, r)

def u8 (r : Reader) : Except WireError (UInt8 × Reader) :=
  (r.word 1).map fun (n, r) => (UInt8.ofNat n, r)

def u16 (r : Reader) : Except WireError (UInt16 × Reader) :=
  (r.word 2).map fun (n, r) => (UInt16.ofNat n, r)

def u32 (r : Reader) : Except WireError (UInt32 × Reader) :=
  (r.word 4).map fun (n, r) => (UInt32.ofNat n, r)

def i16 (r : Reader) : Except WireError (Int16 × Reader) :=
  (r.word 2).map fun (n, r) => (Int16.ofNat n, r)

def i32 (r : Reader) : Except WireError (Int32 × Reader) :=
  (r.word 4).map fun (n, r) => (Int32.ofNat n, r)

/-- Passes over padding. -/
def skip (r : Reader) (count : Nat) : Except WireError Reader :=
  (r.take count).map (·.2)

end Reader

end Wire

end PerceptronMesh

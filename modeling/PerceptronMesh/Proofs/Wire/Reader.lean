import Mathlib.Data.List.Forall2
import PerceptronMesh.Error
import PerceptronMesh.Proofs.Placement.Step
import PerceptronMesh.Wire.Field

/-!
Reading what was written. A read succeeds exactly if the bytes that it needs are left, and it undoes
the writing of a field; where it fails, it reports what it needed and what was left, and the cursor
stays. So fields are read back from the start of their bytes up to the first that does not fit.
-/

namespace PerceptronMesh

open Fixed

namespace Wire

theorem ofLittleEndian_lt (bytes : List UInt8) : ofLittleEndian bytes < Nat.pow 256 bytes.length := by
  induction bytes with
  | nil => exact Nat.one_pos
  | cons byte rest ih =>
    have hpow : Nat.pow 256 (rest.length + 1) = 256 * Nat.pow 256 rest.length := Nat.pow_succ'
    have hbyte := byte.toNat_lt
    rw [ofLittleEndian, List.length_cons, hpow]
    omega

theorem littleEndian_ofLittleEndian (bytes : List UInt8) :
    littleEndian bytes.length (ofLittleEndian bytes) = bytes := by
  induction bytes with
  | nil => rfl
  | cons byte rest ih =>
    have hbyte := byte.toNat_lt
    have hlow : (byte.toNat + 256 * ofLittleEndian rest) / 256 = ofLittleEndian rest := by omega
    have hfirst : UInt8.ofNat (byte.toNat + 256 * ofLittleEndian rest) = byte := by
      apply UInt8.toNat_inj.1
      rw [UInt8.toNat_ofNat']
      omega
    rw [List.length_cons, ofLittleEndian, littleEndian, hlow, hfirst, ih]

namespace Reader

variable {r later : Reader} {position count : Nat} {bytes rest : List UInt8}

theorem take_of_le (h : count ≤ r.remaining) :
    r.take count = .ok (r.rest.take count, ⟨r.position + count, r.rest.drop count⟩) := by
  unfold take
  dsimp only
  rw [List.length_take]
  exact if_neg (Nat.not_lt.2 (Nat.le_min.2 ⟨Nat.le_refl _, h⟩))

theorem take_of_lt (h : r.remaining < count) : r.take count = .error (.truncated r.position count r.remaining) := by
  unfold take
  dsimp only
  rw [List.length_take]
  exact if_pos (Nat.lt_of_le_of_lt (Nat.min_le_right _ _) h)

theorem take_append (h : bytes.length = count) :
    (⟨position, bytes ++ rest⟩ : Reader).take count = .ok (bytes, ⟨position + count, rest⟩) := by
  rw [take_of_le (by simp [remaining, h])]
  simp only [List.take_left' h, List.drop_left' h]

theorem skip_append (h : bytes.length = count) :
    (⟨position, bytes ++ rest⟩ : Reader).skip count = .ok ⟨position + count, rest⟩ := by
  rw [skip, take_append h]
  rfl

theorem u8_append (value : UInt8) :
    (⟨position, littleEndian 1 value.toNat ++ rest⟩ : Reader).u8 = .ok (value, ⟨position + 1, rest⟩) := by
  have hvalue : UInt8.ofNat (ofLittleEndian (littleEndian 1 value.toNat)) = value := by
    rw [ofLittleEndian_littleEndian, Nat.mod_eq_of_lt value.toNat_lt, UInt8.ofNat_toNat]
  rw [u8, word, take_append (length_littleEndian 1 _)]
  exact congrArg (fun value => Except.ok (value, _)) hvalue

theorem u32_append (value : UInt32) :
    (⟨position, littleEndian 4 value.toNat ++ rest⟩ : Reader).u32 = .ok (value, ⟨position + 4, rest⟩) := by
  have hvalue : UInt32.ofNat (ofLittleEndian (littleEndian 4 value.toNat)) = value := by
    rw [ofLittleEndian_littleEndian, Nat.mod_eq_of_lt value.toNat_lt, UInt32.ofNat_toNat]
  rw [u32, word, take_append (length_littleEndian 4 _)]
  exact congrArg (fun value => Except.ok (value, _)) hvalue

theorem exists_take (count : Nat) (h : count ≤ r.rest.length) :
    ∃ bytes later, r.take count = .ok (bytes, later) ∧ later.rest.length + count = r.rest.length := by
  refine ⟨_, _, take_of_le h, ?_⟩
  rw [List.length_drop]
  omega

theorem exists_skip (count : Nat) (h : count ≤ r.rest.length) : ∃ later, r.skip count = .ok later ∧
    later.rest.length + count = r.rest.length := by
  obtain ⟨bytes, later, htake, hlength⟩ := exists_take _ h
  exact ⟨later, by rw [skip, htake]; rfl, hlength⟩

theorem exists_u8 (h : 1 ≤ r.rest.length) : ∃ value later, r.u8 = .ok (value, later) ∧
    later.rest.length + 1 = r.rest.length := by
  obtain ⟨bytes, later, htake, hlength⟩ := exists_take _ h
  exact ⟨_, later, by rw [u8, word, htake]; rfl, hlength⟩

theorem exists_u32 (h : 4 ≤ r.rest.length) : ∃ value later, r.u32 = .ok (value, later) ∧
    later.rest.length + 4 = r.rest.length := by
  obtain ⟨bytes, later, htake, hlength⟩ := exists_take _ h
  exact ⟨_, later, by rw [u32, word, htake]; rfl, hlength⟩

theorem length_of_take (h : r.take count = .ok (bytes, later)) : later.rest.length + count = r.rest.length := by
  rcases Nat.lt_or_ge r.remaining count with hlt | hge
  · cases (take_of_lt hlt).symm.trans h
  · obtain ⟨_, _, htake, hlength⟩ := exists_take count hge
    cases htake.symm.trans h
    exact hlength

theorem length_of_word {width n : Nat} (h : r.word width = .ok (n, later)) :
    later.rest.length + width = r.rest.length := by
  obtain ⟨⟨_, _⟩, htake, hword⟩ := map_eq_ok h
  cases hword
  exact length_of_take htake

theorem length_of_u8 {value : UInt8} (h : r.u8 = .ok (value, later)) : later.rest.length + 1 = r.rest.length := by
  obtain ⟨⟨_, _⟩, hword, hvalue⟩ := map_eq_ok h
  cases hvalue
  exact length_of_word hword

theorem length_of_u32 {value : UInt32} (h : r.u32 = .ok (value, later)) : later.rest.length + 4 = r.rest.length := by
  obtain ⟨⟨_, _⟩, hword, hvalue⟩ := map_eq_ok h
  cases hvalue
  exact length_of_word hword

theorem length_of_skip (h : r.skip count = .ok later) : later.rest.length + count = r.rest.length := by
  obtain ⟨⟨_, _⟩, htake, hskip⟩ := map_eq_ok h
  cases hskip
  exact length_of_take htake

end Reader

/-- What a reader is asked for. Padding is passed over, and bytes of any number are only written. -/
inductive Kind where
  | u8
  | u16
  | u32
  | i16
  | i32
  | fixed (format : Format)
  | pad (count : Nat)
deriving DecidableEq

def Field.kind? : Field → Option Kind
  | .u8 _ => some .u8
  | .u16 _ => some .u16
  | .u32 _ => some .u32
  | .i16 _ => some .i16
  | .i32 _ => some .i32
  | .fixed format _ => some (.fixed format)
  | .pad count => some (.pad count)
  | .raw _ => none

namespace Kind

def width : Kind → Nat
  | .u8 => 1
  | .u16 => 2
  | .u32 => 4
  | .i16 => 2
  | .i32 => 4
  | .fixed format => format.width
  | .pad count => count

/-- The field that bytes are read as. -/
def ofBytes (bytes : List UInt8) : Kind → Field
  | .u8 => .u8 (.ofNat (ofLittleEndian bytes))
  | .u16 => .u16 (.ofNat (ofLittleEndian bytes))
  | .u32 => .u32 (.ofNat (ofLittleEndian bytes))
  | .i16 => .i16 (.ofNat (ofLittleEndian bytes))
  | .i32 => .i32 (.ofNat (ofLittleEndian bytes))
  | .fixed .shortFpreal => .fixed .shortFpreal (.ofRaw (Int16.ofNat (ofLittleEndian bytes)).toInt)
  | .fixed format => .fixed format (.ofRaw (Int32.ofNat (ofLittleEndian bytes)).toInt)
  | .pad count => .pad count

@[simp] theorem kind?_ofBytes (bytes : List UInt8) (kind : Kind) : (kind.ofBytes bytes).kind? = some kind := by
  cases kind with
  | fixed format => cases format <;> rfl
  | _ => rfl

end Kind

theorem Field.width_eq {field : Field} {kind : Kind} (h : field.kind? = some kind) : field.width = kind.width := by
  cases field <;> cases h <;> rfl

theorem ofLittleEndian_word (width : Nat) {n : Nat} (h : n < Nat.pow 256 width) :
    ofLittleEndian (littleEndian width n) = n := by
  rw [ofLittleEndian_littleEndian, Nat.mod_eq_of_lt h]

/-- A word taken as a signed number keeps its bits. -/
theorem ofInt_signed {width : Nat} (bits : BitVec width) :
    BitVec.ofInt width (BitVec.ofNat width bits.toNat).toInt = bits := by
  rw [BitVec.ofInt_toInt, BitVec.ofNat_toNat, BitVec.setWidth_eq]

/-- A fixed-point value is read as a signed word of its width. -/
theorem Kind.ofBytes_fixed {format : Format} (value : Value format) :
    (Kind.fixed format).ofBytes value.bytes = .fixed format value := by
  have hpow : Nat.pow 256 format.width = 2 ^ format.bits := (Nat.pow_mul 2 8 format.width).symm
  have hword : ofLittleEndian value.bytes = value.bits.toNat :=
    ofLittleEndian_word format.width (hpow ▸ value.bits.isLt)
  unfold Kind.ofBytes
  rw [hword]
  obtain ⟨bits⟩ := value
  cases format <;> exact congrArg (fun bits => Field.fixed _ ⟨bits⟩) (ofInt_signed bits)

/-- The bytes of a field are read as that field. -/
theorem Kind.ofBytes_bytes {field : Field} {kind : Kind} (h : field.kind? = some kind) :
    kind.ofBytes field.bytes = field := by
  cases field with
  | u8 value =>
    cases h
    have hword := ofLittleEndian_word 1 value.toNat_lt
    simp [ofBytes, Field.bytes, hword]
  | u16 value =>
    cases h
    have hword := ofLittleEndian_word 2 value.toNat_lt
    simp [ofBytes, Field.bytes, hword]
  | u32 value =>
    cases h
    have hword := ofLittleEndian_word 4 value.toNat_lt
    simp [ofBytes, Field.bytes, hword]
  | i16 value =>
    cases h
    have hword := ofLittleEndian_word 2 value.toUInt16.toNat_lt
    simp only [ofBytes, Field.bytes, hword]
    exact congrArg (fun word => Field.i16 ⟨word⟩) (UInt16.ofNat_toNat ..)
  | i32 value =>
    cases h
    have hword := ofLittleEndian_word 4 value.toUInt32.toNat_lt
    simp only [ofBytes, Field.bytes, hword]
    exact congrArg (fun word => Field.i32 ⟨word⟩) (UInt32.ofNat_toNat ..)
  | fixed format value =>
    cases h
    exact ofBytes_fixed value
  | pad count =>
    cases h
    rfl
  | raw data => cases h

/-- The bytes of padding are not looked at; all others are those of the field that is read. -/
theorem Kind.bytes_ofBytes {bytes : List UInt8} {kind : Kind} (hwidth : bytes.length = kind.width)
    (hvalue : ∀ count, kind ≠ .pad count) : (kind.ofBytes bytes).bytes = bytes := by
  have hword : ofLittleEndian bytes < Nat.pow 256 kind.width := hwidth ▸ ofLittleEndian_lt bytes
  have hbytes : littleEndian kind.width (ofLittleEndian bytes) = bytes := by
    rw [← hwidth, littleEndian_ofLittleEndian]
  refine Eq.trans ?_ hbytes
  cases kind with
  | u8 => exact congrArg (littleEndian 1) (UInt8.toNat_ofNat_of_lt hword)
  | u16 => exact congrArg (littleEndian 2) (UInt16.toNat_ofNat_of_lt hword)
  | u32 => exact congrArg (littleEndian 4) (UInt32.toNat_ofNat_of_lt hword)
  | i16 => exact congrArg (littleEndian 2) (UInt16.toNat_ofNat_of_lt hword)
  | i32 => exact congrArg (littleEndian 4) (UInt32.toNat_ofNat_of_lt hword)
  | fixed format =>
    have hsigned (bits : Nat) (h : ofLittleEndian bytes < 2 ^ bits) :
        (BitVec.ofInt bits (BitVec.ofNat bits (ofLittleEndian bytes)).toInt).toNat = ofLittleEndian bytes := by
      rw [BitVec.ofInt_toInt, BitVec.toNat_ofNat, Nat.mod_eq_of_lt h]
    cases format with
    | shortFpreal => exact congrArg (littleEndian 2) (hsigned 16 hword)
    | _ => exact congrArg (littleEndian 4) (hsigned 32 hword)
  | pad count => exact absurd rfl (hvalue count)

namespace Reader

variable {r : Reader} {kind : Kind}

/-- The next field of a kind. -/
def field (r : Reader) : Kind → Except WireError (Field × Reader)
  | .u8 => r.u8.map fun (value, r) => (.u8 value, r)
  | .u16 => r.u16.map fun (value, r) => (.u16 value, r)
  | .u32 => r.u32.map fun (value, r) => (.u32 value, r)
  | .i16 => r.i16.map fun (value, r) => (.i16 value, r)
  | .i32 => r.i32.map fun (value, r) => (.i32 value, r)
  | .fixed .shortFpreal => r.i16.map fun (value, r) => (.fixed .shortFpreal (.ofRaw value.toInt), r)
  | .fixed format => r.i32.map fun (value, r) => (.fixed format (.ofRaw value.toInt), r)
  | .pad count => (r.skip count).map fun r => (.pad count, r)

theorem field_eq (r : Reader) (kind : Kind) :
    r.field kind = (r.take kind.width).map fun (bytes, later) => (kind.ofBytes bytes, later) := by
  have hfused {width : Nat} {α : Type} (value : Nat → α) (build : α → Field) :
      ((r.word width).map fun p => (value p.1, p.2)).map (fun (value, r) => (build value, r)) =
        (r.take width).map fun (bytes, later) => (build (value (ofLittleEndian bytes)), later) := by
    unfold word
    cases r.take width <;> rfl
  cases kind with
  | u8 => exact hfused UInt8.ofNat .u8
  | u16 => exact hfused UInt16.ofNat .u16
  | u32 => exact hfused UInt32.ofNat .u32
  | i16 => exact hfused Int16.ofNat .i16
  | i32 => exact hfused Int32.ofNat .i32
  | fixed format =>
    cases format with
    | shortFpreal => exact hfused Int16.ofNat fun value => .fixed _ (.ofRaw value.toInt)
    | _ => exact hfused Int32.ofNat fun value => .fixed _ (.ofRaw value.toInt)
  | pad count =>
    show (((r.take count).map (·.2)).map fun later => (Field.pad count, later)) =
      (r.take count).map fun (_, later) => (Field.pad count, later)
    cases r.take count <;> rfl

theorem field_of_le (h : kind.width ≤ r.remaining) : r.field kind =
    .ok (kind.ofBytes (r.rest.take kind.width), ⟨r.position + kind.width, r.rest.drop kind.width⟩) := by
  rw [field_eq, take_of_le h]
  rfl

theorem field_of_lt (h : r.remaining < kind.width) :
    r.field kind = .error (.truncated r.position kind.width r.remaining) := by
  rw [field_eq, take_of_lt h]
  rfl

end Reader

/-- Takes the next bytes from a cursor that moves in place, only once they are known to be there. -/
def takeInPlace (count : Nat) : EStateM WireError Reader (List UInt8) := do
  let r ← get
  if r.remaining < count then
    throw (.truncated r.position count r.remaining)
  else
    set (⟨r.position + count, r.rest.drop count⟩ : Reader)
    return r.rest.take count

def fieldInPlace (kind : Kind) : EStateM WireError Reader Field :=
  kind.ofBytes <$> takeInPlace kind.width

/-- The fields of some kinds, up to the first that cannot be read. -/
def fieldsInPlace (kinds : List Kind) : EStateM WireError Reader (List Field) :=
  kinds.mapM fieldInPlace

/-- A field, or why it cannot be read. -/
def attemptInPlace (kind : Kind) : EStateM WireError Reader (Except WireError Field) :=
  tryCatch (Except.ok <$> fieldInPlace kind) fun e => pure (.error e)

/-- A field of every kind or why it cannot be read, each from where the cursor then stands. -/
def attemptsInPlace (kinds : List Kind) : EStateM WireError Reader (List (Except WireError Field)) :=
  kinds.mapM attemptInPlace

/-- How a cursor stands in the bytes that it was put on. -/
structure Reader.On (r : Reader) (bytes : List UInt8) : Prop where
  remaining : r.position + r.remaining = bytes.length
  rest : r.rest = bytes.drop r.position

/-- The kinds are those of the fields, one after another. -/
abbrev OfKinds (fields : List Field) (kinds : List Kind) : Prop :=
  List.Forall₂ (fun field kind => field.kind? = some kind) fields kinds

theorem encode_cons (field : Field) (fields : List Field) :
    encode (field :: fields) = field.bytes ++ encode fields := List.flatMap_cons

section InPlace

variable {r stop : Reader} {bytes : List UInt8} {kind : Kind} {fields : List Field} {kinds : List Kind}

theorem Reader.On.start (bytes : List UInt8) : (Reader.ofBytes bytes).On bytes := by
  constructor
  · exact Nat.zero_add _
  · rfl

theorem Reader.On.advance {count : Nat} (h : r.On bytes) (hcount : count ≤ r.remaining) :
    (⟨r.position + count, r.rest.drop count⟩ : Reader).On bytes := by
  have hremaining := h.remaining
  constructor
  · show r.position + count + (r.rest.drop count).length = _
    rw [List.length_drop]
    unfold Reader.remaining at hremaining hcount
    omega
  · show r.rest.drop count = _
    rw [h.rest, List.drop_drop]

theorem fieldInPlace_of_le (h : kind.width ≤ r.remaining) : fieldInPlace kind r =
    .ok (kind.ofBytes (r.rest.take kind.width)) ⟨r.position + kind.width, r.rest.drop kind.width⟩ := by
  apply Step.map_ok
  show (if r.remaining < kind.width then _ else _ : EStateM WireError Reader (List UInt8)) r = _
  rw [if_neg (Nat.not_lt.2 h)]
  rfl

theorem fieldInPlace_of_lt (h : r.remaining < kind.width) :
    fieldInPlace kind r = .error (.truncated r.position kind.width r.remaining) r := by
  apply Step.map_error
  show (if r.remaining < kind.width then _ else _ : EStateM WireError Reader (List UInt8)) r = _
  rw [if_pos h]
  rfl

/-- Reading in place is reading, with the cursor kept where a read fails. -/
theorem fieldInPlace_eq (kind : Kind) (r : Reader) : fieldInPlace kind r =
    match r.field kind with
    | .ok (field, later) => .ok field later
    | .error e => .error e r := by
  rcases Nat.lt_or_ge r.remaining kind.width with hlt | hge
  · rw [fieldInPlace_of_lt hlt, Reader.field_of_lt hlt]
  · rw [fieldInPlace_of_le hge, Reader.field_of_le hge]

theorem fieldInPlace_bytes {field : Field} (h : field.kind? = some kind) (position : Nat) (rest : List UInt8) :
    fieldInPlace kind ⟨position, field.bytes ++ rest⟩ = .ok field ⟨position + field.width, rest⟩ := by
  have hlength : field.bytes.length = kind.width := by rw [Field.length_bytes, Field.width_eq h]
  rw [fieldInPlace_of_le (by simp [Reader.remaining, hlength])]
  simp only [List.take_left' hlength, List.drop_left' hlength, Kind.ofBytes_bytes h, Field.width_eq h]

theorem fieldsInPlace_encode (h : OfKinds fields kinds) (position : Nat) (rest : List UInt8) :
    fieldsInPlace kinds ⟨position, encode fields ++ rest⟩ =
      .ok fields ⟨position + (encode fields).length, rest⟩ := by
  induction h generalizing position with
  | nil => rfl
  | @cons field kind fields kinds hkind _ ih =>
    rw [encode_cons, List.length_append, Field.length_bytes, List.append_assoc, ← Nat.add_assoc, fieldsInPlace,
      List.mapM_cons, Step.bind_ok (fieldInPlace_bytes hkind ..), ← fieldsInPlace, Step.bind_ok (ih _)]
    rfl

/-- Where reading fails at a kind, nothing of a later kind is read. -/
theorem fieldsInPlace_of_error {before : List Kind} {read : List Field} {later : Reader} {e : WireError}
    (hbefore : fieldsInPlace before r = .ok read stop) (hkind : fieldInPlace kind stop = .error e later)
    (after : List Kind) : fieldsInPlace (before ++ kind :: after) r = .error e later := by
  rw [fieldsInPlace, List.mapM_append, ← fieldsInPlace, Step.bind_ok hbefore, List.mapM_cons]
  exact Step.bind_error (Step.bind_error hkind)

/-- Of fields whose bytes are cut short, one is the first whose bytes are not all there. -/
theorem exists_short {size : Nat} (h : OfKinds fields kinds) (hsize : size < (encode fields).length) :
    ∃ before field after before' kind after', fields = before ++ field :: after ∧
      kinds = before' ++ kind :: after' ∧ OfKinds before before' ∧ field.kind? = some kind ∧
      (encode before).length ≤ size ∧ size < (encode before).length + field.width := by
  induction h generalizing size with
  | nil => exact absurd hsize (Nat.not_lt_zero _)
  | @cons field kind fields kinds hkind hkinds ih =>
    rcases Nat.lt_or_ge size field.width with hlt | hge
    · refine ⟨[], field, fields, [], kind, kinds, rfl, rfl, .nil, hkind, Nat.zero_le _, ?_⟩
      rwa [encode_nil, List.length_nil, Nat.zero_add]
    · rw [encode_cons, List.length_append, Field.length_bytes] at hsize
      have hrest : size - field.width < (encode fields).length := by omega
      obtain ⟨before, short, after, before', kind', after', hfields, hkinds', hbefore, hshort, hle, hlt⟩ := ih hrest
      have hlength : (encode (field :: before)).length = field.width + (encode before).length := by
        rw [encode_cons, List.length_append, Field.length_bytes]
      refine ⟨field :: before, short, after, kind :: before', kind', after', by rw [hfields]; rfl,
        by rw [hkinds']; rfl, .cons hkind hbefore, hshort, by omega, by omega⟩

/-- An attempt gives a field and moves past it, or fails and leaves the cursor. -/
theorem attemptInPlace_on (hr : r.On bytes) (kind : Kind) :
    ∃ result later, attemptInPlace kind r = .ok result later ∧ later.On bytes := by
  rcases Nat.lt_or_ge r.remaining kind.width with hlt | hge
  · refine ⟨.error (.truncated r.position kind.width r.remaining), r, ?_, hr⟩
    show EStateM.tryCatch _ _ r = _
    rw [EStateM.tryCatch, Step.map_error (fieldInPlace_of_lt hlt)]
    rfl
  · refine ⟨.ok (kind.ofBytes (r.rest.take kind.width)), _, ?_, hr.advance hge⟩
    show EStateM.tryCatch _ _ r = _
    rw [EStateM.tryCatch, Step.map_ok (fieldInPlace_of_le hge)]

theorem attemptsInPlace_on (hr : r.On bytes) (kinds : List Kind) :
    ∃ results later, attemptsInPlace kinds r = .ok results later ∧ later.On bytes := by
  induction kinds generalizing r with
  | nil => exact ⟨[], r, rfl, hr⟩
  | cons kind kinds ih =>
    obtain ⟨result, later, hresult, hlater⟩ := attemptInPlace_on hr kind
    obtain ⟨results, last, hresults, hlast⟩ := ih hlater
    refine ⟨result :: results, last, ?_, hlast⟩
    rw [attemptsInPlace, List.mapM_cons, Step.bind_ok hresult, ← attemptsInPlace, Step.bind_ok hresults]
    rfl

end InPlace

/-- Reading undoes writing and fails cleanly. A read succeeds exactly if what it needs is left; where it
fails, it reports where the cursor stands, what it needs and what is left, and the cursor stays. So
reading the kinds of some fields from their bytes gives the fields and ends where the bytes end, and
reading them from bytes that are cut short gives the fields up to the first that does not fit.
Whatever was tried, the bytes passed and the bytes left are those of the buffer. -/
theorem reading_spec {fields : List Field} {kinds : List Kind} (hkinds : OfKinds fields kinds) :
    (∀ kind (r : Reader), fieldInPlace kind r =
      match r.field kind with
      | .ok (field, later) => .ok field later
      | .error e => .error e r) ∧
    (∀ kind (r : Reader),
      if kind.width ≤ r.remaining then
        ∃ field, fieldInPlace kind r = .ok field ⟨r.position + kind.width, r.rest.drop kind.width⟩ ∧
          field.kind? = some kind ∧ ((∀ count, kind ≠ .pad count) → field.bytes = r.rest.take kind.width)
      else fieldInPlace kind r = .error (.truncated r.position kind.width r.remaining) r) ∧
    fieldsInPlace kinds (.ofBytes (encode fields)) = .ok fields ⟨(encode fields).length, []⟩ ∧
    (∀ size < (encode fields).length, ∃ before field after before' kind after' stop,
      fields = before ++ field :: after ∧ kinds = before' ++ kind :: after' ∧ field.kind? = some kind ∧
      stop.position = (encode before).length ∧ stop.position ≤ size ∧ size < stop.position + field.width ∧
      stop.remaining = size - stop.position ∧ stop.rest = ((encode fields).take size).drop stop.position ∧
      fieldsInPlace before' (.ofBytes ((encode fields).take size)) = .ok before stop ∧
      fieldInPlace kind stop = .error (.truncated stop.position field.width stop.remaining) stop ∧
      fieldsInPlace kinds (.ofBytes ((encode fields).take size)) =
        .error (.truncated stop.position field.width stop.remaining) stop) ∧
    ∀ buffer tried, ∃ results r, attemptsInPlace tried (.ofBytes buffer) = .ok results r ∧
      r.position + r.remaining = buffer.length ∧ r.rest = buffer.drop r.position := by
  refine ⟨fieldInPlace_eq, ?_, ?_, ?_, ?_⟩
  · intro kind r
    split
    case isTrue hfits =>
      exact ⟨_, fieldInPlace_of_le hfits, Kind.kind?_ofBytes .., Kind.bytes_ofBytes (List.length_take_of_le hfits)⟩
    case isFalse hshort => exact fieldInPlace_of_lt (Nat.not_le.1 hshort)
  · have hread := fieldsInPlace_encode hkinds 0 []
    rwa [List.append_nil, Nat.zero_add] at hread
  · intro size hsize
    obtain ⟨before, field, after, before', kind, after', rfl, rfl, hbefore, hkind, hle, hlt⟩ :=
      exists_short hkinds hsize
    -- The bytes of the fields before the short one are all there, and then its first ones.
    have htake : (encode (before ++ field :: after)).take size =
        encode before ++ (encode (field :: after)).take (size - (encode before).length) := by
      rw [encode_append, List.take_append, List.take_of_length_le hle]
    have hread := fieldsInPlace_encode hbefore 0 ((encode (field :: after)).take (size - (encode before).length))
    rw [Nat.zero_add, ← htake] at hread
    have hremaining : (⟨(encode before).length,
        (encode (field :: after)).take (size - (encode before).length)⟩ : Reader).remaining =
          size - (encode before).length := by
      rw [encode_append, List.length_append] at hsize
      exact List.length_take_of_le (by omega)
    have hless : size - (encode before).length < kind.width := by
      rw [← Field.width_eq hkind]
      omega
    have hshort := fieldInPlace_of_lt (hremaining ▸ hless)
    rw [← Field.width_eq hkind] at hshort
    exact ⟨before, field, after, before', kind, after', _, rfl, rfl, hkind, rfl, hle, hlt, hremaining,
      by rw [htake, List.drop_left], hread, hshort, fieldsInPlace_of_error hread hshort after'⟩
  · intro buffer tried
    obtain ⟨results, r, hresults, hr⟩ := attemptsInPlace_on (.start buffer) tried
    exact ⟨results, r, hresults, hr.remaining, hr.rest⟩

/-- Fields of every kind, a negative word and padding of no bytes among them, read whole and cut in
the last word. -/
theorem reading_spec_mixed :
    let fields : List Field := [.u8 3, .pad 3, .u32 0x01020304, .i16 (-2), .pad 0, .u16 513,
      .fixed .shortFpreal (.ofRaw (-1)), .fixed .activation .absent, .i32 (-70000)]
    let kinds : List Kind := [.u8, .pad 3, .u32, .i16, .pad 0, .u16, .fixed .shortFpreal, .fixed .activation, .i32]
    OfKinds fields kinds ∧ fieldsInPlace kinds (.ofBytes (encode fields)) = .ok fields ⟨22, []⟩ ∧
      (attemptsInPlace (kinds ++ [.u16, .u16]) (.ofBytes ((encode fields).take 20)) matches .ok _ ⟨20, []⟩) := by
  intro fields kinds
  have hkinds : OfKinds fields kinds := by
    unfold fields kinds
    repeat constructor
  exact ⟨hkinds, (reading_spec hkinds).2.2.1, by rfl⟩

end Wire

end PerceptronMesh

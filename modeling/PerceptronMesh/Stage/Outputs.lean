import PerceptronMesh.Error
import PerceptronMesh.Wire.Field

/-!
What output groups record while a stage runs: where each recorded tick stands,
and the outputs of every subgroup at it.
-/

namespace PerceptronMesh

/-- The position of a recorded tick. -/
structure TickRecord where
  epoch : UInt32
  example_ : UInt32
  event : UInt32
  tick : UInt32
deriving DecidableEq, Repr

namespace TickRecord

def size : Nat := 16

def fields (r : TickRecord) : List Wire.Field :=
  [.u32 r.epoch, .u32 r.example_, .u32 r.event, .u32 r.tick]

def bytes (r : TickRecord) : List UInt8 := Wire.encode r.fields

@[simp] theorem length_bytes (r : TickRecord) : r.bytes.length = size := rfl

/-- Records one after another. -/
def encodeAll (records : List TickRecord) : List UInt8 := records.flatMap bytes

def read (r : Wire.Reader) : Except WireError (TickRecord × Wire.Reader) := do
  let (epoch, r) ← r.u32
  let (example_, r) ← r.u32
  let (event, r) ← r.u32
  let (tick, r) ← r.u32
  pure (⟨epoch, example_, event, tick⟩, r)

def readMany : (count : Nat) → Wire.Reader → Except WireError (List TickRecord)
  | 0, _ => .ok []
  | count + 1, r => do
    let (record, r) ← read r
    let records ← readMany count r
    pure (record :: records)

/-- The records in a buffer, which has to hold a whole number of them. -/
def decodeAll (data : List UInt8) : Result (List TickRecord) :=
  if data.length % size ≠ 0 then .error (.placement (.partialTickRecord data.length))
  else (readMany (data.length / size) (.ofBytes data)).mapError .wire

end TickRecord

/-- Outputs of one subgroup: for every recorded tick one 16-bit value a unit. -/
structure SubgroupOutputs where
  group : GroupId
  subgroup : Nat
  units : Nat
  data : List UInt8
deriving DecidableEq, Repr

namespace SubgroupOutputs

/-- Bytes of one tick. -/
def width (o : SubgroupOutputs) : Nat := 2 * o.units

/-- Ticks that the data holds in full; none where there are no units. -/
def ticks (o : SubgroupOutputs) : Nat := if o.units = 0 then 0 else o.data.length / o.width

def words : List UInt8 → List UInt16
  | low :: high :: rest => UInt16.ofNat (Wire.ofLittleEndian [low, high]) :: words rest
  | _ => []

/-- A position in the data as a 64-bit word has it, which wraps; arithmetic that is checked for
    overflow stops there instead. Data of more bytes than such a word counts is held nowhere, and
    a position in it is left as it is. -/
def address (o : SubgroupOutputs) (position : Nat) : Nat :=
  if o.data.length < Nat.pow 2 64 then position % Nat.pow 2 64 else position

/-- The outputs at one tick. Where the start of a tick wraps, those of another one may be found. -/
def tick (o : SubgroupOutputs) (index : Nat) : Result (List UInt16) :=
  let start := o.address (index * o.width)
  let stop := o.address (start + o.width)
  if stop < start ∨ o.data.length < stop then
    .error (.placement (.noTick o.group o.subgroup o.ticks index))
  else .ok (words ((o.data.drop start).take (stop - start)))

theorem address_of_le (o : SubgroupOutputs) {position : Nat} (h : position ≤ o.data.length) :
    o.address position = position := by
  unfold address
  split
  · exact Nat.mod_eq_of_lt (Nat.lt_of_le_of_lt h ‹_›)
  · rfl

theorem address_of_lt (o : SubgroupOutputs) {position : Nat} (h : position < Nat.pow 2 64) :
    o.address position = position := by
  unfold address
  split
  · exact Nat.mod_eq_of_lt h
  · rfl

/-- A tick that the data holds in full is read where it stands. -/
theorem tick_of_le (o : SubgroupOutputs) {index : Nat} (h : index * o.width + o.width ≤ o.data.length) :
    o.tick index = .ok (words ((o.data.drop (index * o.width)).take o.width)) := by
  have hstart := o.address_of_le (Nat.le_trans (Nat.le_add_right _ _) h)
  have hheld : ¬(index * o.width + o.width < index * o.width ∨
      o.data.length < index * o.width + o.width) := by omega
  unfold tick
  simp only [hstart, o.address_of_le h]
  rw [if_neg hheld, Nat.add_sub_cancel_left]

end SubgroupOutputs

structure RecordedOutputs where
  ticks : List TickRecord := []
  outputs : List SubgroupOutputs := []
deriving DecidableEq, Repr

namespace RecordedOutputs

def isEmpty (r : RecordedOutputs) : Bool := r.ticks.isEmpty

def subgroup? (r : RecordedOutputs) (group : GroupId) (subgroup : Nat) : Option SubgroupOutputs :=
  r.outputs.find? fun o => o.group = group && o.subgroup = subgroup

end RecordedOutputs

end PerceptronMesh

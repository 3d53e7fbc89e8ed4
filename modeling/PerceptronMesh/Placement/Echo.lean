import PerceptronMesh.Example.Record
import PerceptronMesh.Payload.UnitPayload
import PerceptronMesh.Stage.Report

/-!
A recording made from the regions of loaded units alone: every output group
answers each event with the event's targets.
-/

namespace PerceptronMesh

namespace Echo

/-- An output subgroup that records, as its Threshold unit's regions describe it. -/
structure Writer where
  group : GroupId
  subgroup : Nat
  units : Nat
  lastTickOnly : Bool
  /-- Raw targets, one row of `units` values an event. -/
  targets : Array Int
  payload : UnitPayload

/-- The fields of a Threshold unit's Core region that recording depends on. -/
structure OutputFlags where
  isOutput : Bool
  units : Nat
  writeOut : Bool
  lastTickOnly : Bool
deriving DecidableEq, Repr

def OutputFlags.read (core : List UInt8) : Except WireError OutputFlags := do
  let r := Wire.Reader.ofBytes core
  let (isOutput, r) ← r.u8
  let r ← r.skip 3
  let (units, r) ← r.u32
  let r ← r.skip 5
  let (writeOut, r) ← r.u8
  let (lastTickOnly, _) ← r.u8
  pure {
    isOutput := isOutput != 0, units := units.toNat
    writeOut := writeOut != 0, lastTickOnly := lastTickOnly != 0 }

/-- The values of a region of 32-bit words. -/
def signedWords : List UInt8 → List Int
  | a :: b :: c :: d :: rest =>
    Wire.signed 32 (Wire.ofLittleEndian [a, b, c, d]) :: signedWords rest
  | _ => []

/-- A recording subgroup, unless the unit's group writes no outputs. -/
def writer? (group : GroupId) (subgroup : Nat) (payload : UnitPayload) :
    Except WireError (Option Writer) :=
  match payload.region? .core with
  | none => .ok none
  | some core => (OutputFlags.read core).map fun flags =>
    if flags.isOutput && flags.writeOut then
      some {
        group, subgroup, payload
        units := flags.units
        lastTickOnly := flags.lastTickOnly
        targets := (signedWords ((payload.region? .targets).getD [])).toArray }
    else none

/-- Count and first row of an example's events. -/
structure EventSpan where
  events : Nat
  firstRow : Nat
deriving DecidableEq, Repr, Inhabited

/-- The spans in an Examples region, read in whole records. -/
def eventSpans : List UInt8 → List EventSpan
  | _ :: _ :: _ :: _ :: a :: b :: c :: d :: e :: f :: g :: h :: _ :: _ :: _ :: _ :: rest =>
    ⟨Wire.ofLittleEndian [a, b, c, d], Wire.ofLittleEndian [e, f, g, h]⟩ :: eventSpans rest
  | _ => []

/-- A raw activation as the unsigned 16-bit value that outputs are recorded in;
    an absent one is recorded as 0. -/
def shortActivation (raw : Int) : UInt16 :=
  if raw = Fixed.absentRaw then 0
  else UInt16.ofNat (max 0 (min 65535 (raw / Nat.pow 2 12))).toNat

/-- Presentations one after another: epoch and example of those made, and the cursor, which
    counts them in a word and wraps. -/
structure Round where
  shown : Array (Nat × Nat) := #[]
  cursor : UInt32

/-- The example at the cursor, among those that are held, is presented. -/
def Round.present (held epoch : Nat) (r : Round) : Round :=
  { shown := r.shown.push (epoch, r.cursor.toNat % held), cursor := r.cursor + 1 }

/-- One epoch of a stage. -/
def Round.epoch (held examples : Nat) (r : Round) (epoch : Nat) : Round :=
  (List.range examples).foldl (fun r _ => r.present held epoch) r

/-- All presentations of a stage, which goes on from a cursor. -/
def round (stage : StageDescriptor) (cursor : UInt32) (held : Nat) : Round :=
  (List.range stage.epochs.toNat).foldl (Round.epoch held stage.examples.toNat) { cursor }

/-- The presentations of an epoch, counted on from the cursor. -/
theorem Round.epoch_eq (held examples : Nat) (r : Round) (epoch : Nat) :
    r.epoch held examples epoch =
      { shown := r.shown ++
          ((List.range examples).map fun n => (epoch, (r.cursor + .ofNat n).toNat % held)).toArray
        cursor := r.cursor + .ofNat examples } := by
  induction examples with
  | zero => simp [Round.epoch]
  | succ examples ih =>
    unfold Round.epoch at ih ⊢
    rw [List.range_succ, List.foldl_append, ih, List.map_append]
    simp [Round.present, UInt32.add_assoc]

/-- The presentations of a stage, counted on from its cursor. -/
theorem round_eq (stage : StageDescriptor) (cursor : UInt32) (held : Nat) :
    round stage cursor held =
      { shown := ((List.range stage.epochs.toNat).flatMap fun epoch =>
          (List.range stage.examples.toNat).map fun n =>
            (epoch, (cursor + .ofNat (epoch * stage.examples.toNat + n)).toNat % held)).toArray
        cursor := cursor + stage.epochs * stage.examples } := by
  have hrun (epochs : Nat) :
      (List.range epochs).foldl (Round.epoch held stage.examples.toNat) { cursor } =
        { shown := ((List.range epochs).flatMap fun epoch =>
            (List.range stage.examples.toNat).map fun n =>
              (epoch, (cursor + .ofNat (epoch * stage.examples.toNat + n)).toNat % held)).toArray
          cursor := cursor + .ofNat (epochs * stage.examples.toNat) } := by
    induction epochs with
    | zero => simp
    | succ epochs ih =>
      rw [List.range_succ, List.foldl_append, ih, List.flatMap_append]
      simp [Round.epoch_eq, UInt32.add_assoc, Nat.succ_mul]
  rw [round, hrun, UInt32.ofNat_mul, UInt32.ofNat_toNat, UInt32.ofNat_toNat]

/-- Epoch and example of every presentation of a stage. -/
def presentations (stage : StageDescriptor) (cursor : UInt32) (held : Nat) : List (Nat × Nat) :=
  (round stage cursor held).shown.toList

theorem presentations_eq (stage : StageDescriptor) (cursor : UInt32) (held : Nat) :
    presentations stage cursor held = (List.range stage.epochs.toNat).flatMap fun epoch =>
      (List.range stage.examples.toNat).map fun n =>
        (epoch, (cursor + .ofNat (epoch * stage.examples.toNat + n)).toNat % held) := by
  rw [presentations, round_eq]

/-- One recorded tick, with the row of its event. -/
structure Moment where
  record : TickRecord
  row : Nat

/-- The recorded ticks of one presentation: one for each event, or only one for
    the last. Rows are counted in a word, which wraps. -/
def moments (lastTickOnly : Bool) (spans : Array EventSpan) (epoch example_ : Nat) : List Moment :=
  let span := spans.getD example_ default
  ((List.range span.events).filter fun event => !lastTickOnly || event + 1 = span.events).map
    fun event => {
      record := {
        epoch := UInt32.ofNat epoch, example_ := UInt32.ofNat example_
        event := UInt32.ofNat event, tick := UInt32.ofNat (event + 1) }
      row := (UInt32.ofNat span.firstRow + .ofNat event).toNat }

/-- What a subgroup records at a row of its targets. -/
def Writer.tick (w : Writer) (row : Nat) : List UInt8 :=
  (List.range w.units).flatMap fun unit =>
    let value := shortActivation (w.targets.getD (row * w.units + unit) Fixed.absentRaw)
    Wire.littleEndian 2 value.toNat

/-- The recording of a stage and the cursor after it. Nothing is recorded and the
    cursor stays where no subgroup records or there are no examples. -/
def record (writers : List Writer) (stage : StageDescriptor) (cursor : UInt32) :
    Option RecordedOutputs × UInt32 :=
  match writers with
  | [] => (none, cursor)
  | first :: _ =>
    let spans := (eventSpans ((first.payload.region? .examples).getD [])).toArray
    if spans.isEmpty then (none, cursor)
    else
      let start := if stage.reset then 0 else cursor
      let lastTickOnly := writers.any (·.lastTickOnly)
      let all := (presentations stage start spans.size).flatMap fun (epoch, example_) =>
        moments lastTickOnly spans epoch example_
      let outputs := writers.map fun w =>
        { group := w.group, subgroup := w.subgroup, units := w.units
          data := all.flatMap fun moment => w.tick moment.row : SubgroupOutputs }
      (some { ticks := all.map (·.record), outputs }, (round stage start spans.size).cursor)

end Echo

end PerceptronMesh

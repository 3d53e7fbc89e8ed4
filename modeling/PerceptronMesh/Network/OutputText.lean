import PerceptronMesh.Example.Set
import PerceptronMesh.Numeric.Rounding
import PerceptronMesh.Stage.Outputs
import PerceptronMesh.Text.Writing

/-!
Recorded outputs as text. Every example opens with its epoch and number, the
ticks of the set's first example and a tick 0 of zeros; then follows each
recorded tick with one line a unit, its output beside its target.
-/

namespace PerceptronMesh

open Numeric Text

namespace OutputText

/-- Outputs have six decimals and a width of eight. -/
def outputFormat : PlacesFormat := { places := 6, width := 8, tie := .toEven }

def outputNumber (raw : UInt16) : String := outputFormat.text raw.toNat (Nat.pow 2 15)

/-- A target is written without its fraction, an absent one as a dash. -/
def targetText : UnitValue → String
  | some x => toString (x.truncate (-Nat.pow 2 63) (Nat.pow 2 63 - 1))
  | none => "-"

/-- Ticks that an event may last. The interval more that it has is not counted past the largest
    word; the ticks of all its intervals wrap. -/
def eventTicks (settings : Settings) (times : Times) : UInt32 :=
  match times.max with
  | none => settings.globalMaxTicks
  | some t =>
    saturatingAdd (.ofNat (t.truncate 0 maxWord32).toNat) 1 * .ofNat settings.ticksPerInterval

/-- Ticks that the first example may last, up to the most of the network. -/
def ticksOnFirstExample (s : ExampleSet) (settings : Settings) : UInt32 :=
  match s.examples with
  | [] => 0
  | first :: _ =>
    first.events.foldl (fun total event =>
      min (saturatingAdd total (eventTicks settings (event.times.or s.header.times)))
        settings.globalMaxTicks) 0

/-- Rows of the first events of examples whose first one starts at `row`. -/
def firstRows : (row : Nat) → List Example → List Nat
  | _, [] => []
  | row, e :: rest => row :: firstRows (row + e.events.length) rest

/-- What every tick is written from. -/
structure Source where
  groups : List Group
  firstRows : Array Nat
  ticksPerExample : UInt32
  recorded : RecordedOutputs

/-- Outputs of all subgroups of a group at a tick, in the order of units. -/
def Source.outputs (s : Source) (g : Group) (index : Nat) : Result (List UInt16) := do
  let blocks ← (List.range g.subgroups).mapM fun subgroup =>
    match s.recorded.subgroup? g.id subgroup with
    | none => .error (.placement (.noOutputs g.label subgroup))
    | some block => block.tick index
  let outputs := blocks.flatten
  if outputs.length < g.units then
    throw (.placement (.fewOutputs g.label outputs.length g.units))
  pure (outputs.take g.units)

/-- The lines of one group at a tick. -/
def Source.groupLines (s : Source) (index row : Nat) (g : Group) : Writing Error :=
  .after (s.outputs g index) fun outputs =>
    s!"{g.units} 1" :: outputs.mapIdx fun unit raw =>
      s!"{outputNumber raw} {targetText (g.targets.getD (row * g.units + unit) none)}"

/-- The lines that open an example. -/
def Source.exampleLines (s : Source) (record : TickRecord) : List String :=
  [s!"{record.epoch} {record.example_}", s!"{s.ticksPerExample} {s.groups.length}", "0 -1"] ++
    s.groups.flatMap fun g =>
      s!"{g.units} 1" :: List.replicate g.units s!"{outputNumber 0} 0"

/-- The row of the first event of a tick's example. -/
def Source.firstRow (s : Source) (index : Nat) (record : TickRecord) : Result Nat :=
  match s.firstRows[record.example_.toNat]? with
  | some row => .ok row
  | none => .error (.placement (.noExample index record.example_.toNat s.firstRows.size))

/-- What is remembered from one tick to the next: the epoch and the example that are being
    written, and the row of the first event of that example. -/
structure Place where
  epoch : Option UInt32 := none
  example_ : Option UInt32 := none
  firstRow : Nat := 0
deriving DecidableEq, Repr

/-- A tick of another epoch opens its example again, also where it is the same one. -/
def Place.enterEpoch (place : Place) (record : TickRecord) : Place :=
  if place.epoch = some record.epoch then place
  else { place with epoch := some record.epoch, example_ := none }

/-- The place at a tick and the lines that open its example, if it is not open yet. -/
def Source.enter (s : Source) (index : Nat) (place : Place) (record : TickRecord) :
    Result (Place × List String) := do
  let place := place.enterEpoch record
  if place.example_ = some record.example_ then
    pure (place, [])
  else
    let firstRow ← s.firstRow index record
    pure ({ place with example_ := some record.example_, firstRow }, s.exampleLines record)

/-- The text of a tick without what opens its example. -/
def Source.tickLines (s : Source) (index : Nat) (place : Place) (record : TickRecord) :
    Writing Error :=
  .ofLines [s!"{record.tick} {record.event}"] ++
    .concat (s.groups.map (s.groupLines index (place.firstRow + record.event.toNat)))

/-- The text of ticks numbered from `index` on. -/
def Source.ticks (s : Source) (index : Nat) (place : Place) : List TickRecord → Writing Error
  | [] => .ofLines []
  | record :: rest =>
    match s.enter index place record with
    | .error e => ⟨[], some e⟩
    | .ok (place, opening) =>
      .ofLines opening ++ s.tickLines index place record ++ s.ticks (index + 1) place rest

end OutputText

/-- The text of a recording, up to the first tick that it has no outputs for. -/
def outputText (t : Topology) (examples : ExampleSet) (settings : Settings)
    (recorded : RecordedOutputs) : Writing Error :=
  match t.outputChain.mapM t.group with
  | .error e => ⟨[], some e⟩
  | .ok groups =>
    let source : OutputText.Source := {
      groups, recorded
      firstRows := (OutputText.firstRows 0 examples.examples).toArray
      ticksPerExample := OutputText.ticksOnFirstExample examples settings }
    source.ticks 0 {} recorded.ticks

end PerceptronMesh

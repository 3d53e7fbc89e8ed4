import PerceptronMesh.Proofs.Example.Obtainable
import PerceptronMesh.Proofs.Placement.Writers

/-!
What a stage records, said without bytes and words: the events of the examples in cyclic order,
and at each of them the targets of the output groups. The loopback's recording is that one as
long as rows and presentations can be counted in a word.
-/

namespace PerceptronMesh

open Fixed Numeric Wire

/-- An event that is recorded when an example is presented. -/
structure Showing where
  epoch : Nat
  example_ : Nat
  event : Nat

/-- Each event takes one tick. -/
def Showing.record (x : Showing) : TickRecord :=
  { epoch := .ofNat x.epoch, example_ := .ofNat x.example_, event := .ofNat x.event
    tick := .ofNat (x.event + 1) }

namespace ExampleSet

/-- The events of an example that are recorded: all of them or the last. -/
def recordedEvents (s : ExampleSet) (lastOnly : Bool) (example_ : Nat) : List Nat :=
  (List.range (s.eventCount example_)).drop (if lastOnly then s.eventCount example_ - 1 else 0)

/-- What a stage records: in every epoch its number of presentations, of one example after
another, with the first again after the last. `start` presentations went before. -/
def showings (s : ExampleSet) (stage : StageDescriptor) (start : Nat) (lastOnly : Bool) : List Showing :=
  (List.range stage.epochs.toNat).flatMap fun epoch =>
    (List.range stage.examples.toNat).flatMap fun k =>
      let example_ := (start + epoch * stage.examples.toNat + k) % s.examples.length
      (s.recordedEvents lastOnly example_).map fun event => ⟨epoch, example_, event⟩

/-- The row of an event among those of all examples. -/
def row (s : ExampleSet) (x : Showing) : Nat := s.firstRow x.example_ + x.event

end ExampleSet

/-- A target as it is recorded, an absent one as 0. -/
def recordedTarget : UnitValue → UInt16
  | none => 0
  | some x => Echo.shortActivation (Value.ofBinary64 x : Activation).raw

theorem shortActivation_ofOption (value : UnitValue) :
    Echo.shortActivation (Value.ofOption value : Activation).raw = recordedTarget value := by
  cases value with
  | none => rfl
  | some x => rfl

/-- The outputs of a subgroup are the targets of its units at the given rows. -/
structure SubgroupOutputs.Records (o : SubgroupOutputs) (g : Group) (subgroup : Nat) (rows : List Nat) :
    Prop where
  group_eq : o.group = g.id
  subgroup_eq : o.subgroup = subgroup
  units_eq : o.units = g.subgroupUnits subgroup
  length_eq : o.data.length = rows.length * o.width
  tick_eq : ∀ {k row : Nat}, rows[k]? = some row → o.tick k = .ok ((List.range o.units).map fun unit =>
    recordedTarget (g.targets.getD (row * g.units + g.subgroupOffset subgroup + unit) none))

/-- A recording holds a record of everything shown, and one block of outputs for each subgroup of
each output group. -/
structure RecordedOutputs.Shows (r : RecordedOutputs) (t : Topology) (s : ExampleSet)
    (showings : List Showing) : Prop where
  ticks_eq : r.ticks = showings.map Showing.record
  outputs : List.Forall₂ (fun recorder o => SubgroupOutputs.Records o recorder.1 recorder.2 (showings.map s.row))
    t.outputSubgroups r.outputs

namespace Echo

section Tick

variable {w : Writer} {source : PayloadSource} {g : Group} {subgroup : Nat}

theorem Writer.tick_eq (hw : w.Reads source g subgroup) (row : Nat) :
    w.tick row = ((List.range w.units).map fun unit => recordedTarget
      (g.targets.getD (row * g.units + g.subgroupOffset subgroup + unit) none)).flatMap
        fun value => littleEndian 2 value.toNat := by
  unfold Writer.tick
  rw [List.flatMap_map]
  refine List.flatMap_congr fun unit hunit => ?_
  rw [hw.target_eq row (List.mem_range.1 hunit), shortActivation_ofOption]

theorem Writer.length_tick (hw : w.Reads source g subgroup) (row : Nat) :
    (w.tick row).length = 2 * w.units := by
  rw [Writer.tick_eq hw, length_flatMap_of_width fun value _ => length_littleEndian 2 value.toNat,
    List.length_map, List.length_range, Nat.mul_comm]

/-- The block of a writer holds the targets of its subgroup, tick by tick. -/
theorem Writer.records (hw : w.Reads source g subgroup) (rows : List Nat) :
    SubgroupOutputs.Records ⟨w.group, w.subgroup, w.units, rows.flatMap w.tick⟩ g subgroup rows := by
  have hwidth : ∀ row ∈ rows, (w.tick row).length = 2 * w.units := fun row _ => Writer.length_tick hw row
  have hlength : (rows.flatMap w.tick).length = rows.length * (2 * w.units) := length_flatMap_of_width hwidth
  refine ⟨hw.group_eq, hw.subgroup_eq, hw.units_eq, hlength, ?_⟩
  intro k row hrow
  have hk : k < rows.length := (List.getElem?_eq_some_iff.1 hrow).1
  have hheld : k * (2 * w.units) + 2 * w.units ≤ (rows.flatMap w.tick).length := by
    have hrows : (k + 1) * (2 * w.units) ≤ rows.length * (2 * w.units) := Nat.mul_le_mul_right _ hk
    rw [Nat.succ_mul] at hrows
    omega
  have hitem : item (rows.flatMap w.tick) (2 * w.units) k = w.tick row := item_flatMap hwidth hrow
  refine (SubgroupOutputs.tick_of_le _ hheld).trans ?_
  show Except.ok (SubgroupOutputs.words (item (rows.flatMap w.tick) (2 * w.units) k)) = _
  rw [hitem, Writer.tick_eq hw, SubgroupOutputs.words_bytes]

end Tick

/-- Of all numbers below a bound the last is kept, or all of them are. -/
theorem filter_last_range (lastOnly : Bool) (count : Nat) :
    (List.range count).filter (fun event => !lastOnly || event + 1 = count) =
      (List.range count).drop (if lastOnly then count - 1 else 0) := by
  cases lastOnly with
  | false => simp
  | true =>
    cases count with
    | zero => rfl
    | succ count =>
      have hbefore : (List.range count).filter (fun event => event + 1 = count + 1) = [] := by
        rw [List.filter_eq_nil_iff]
        intro event hevent
        have hlt := List.mem_range.1 hevent
        simp only [decide_eq_true_eq]
        omega
      simp only [Bool.not_true, Bool.false_or, if_true, Nat.add_sub_cancel, List.range_succ,
        List.filter_append, hbefore, List.nil_append]
      rw [List.drop_left' List.length_range]
      simp

variable {s : ExampleSet} {stage : StageDescriptor} {spans : Array EventSpan} {start : Nat} {lastOnly : Bool}

theorem moments_eq (hevents : s.events.length ≤ maxWord32) {epoch example_ : Nat}
    (hspan : spans.getD example_ default = ⟨s.eventCount example_, s.firstRow example_⟩) :
    moments lastOnly spans epoch example_ = (s.recordedEvents lastOnly example_).map fun event =>
      { record := Showing.record ⟨epoch, example_, event⟩, row := s.row ⟨epoch, example_, event⟩ } := by
  unfold moments
  simp only [hspan, filter_last_range]
  refine List.map_congr_left fun event hevent => ?_
  have hlt : event < s.eventCount example_ := List.mem_range.1 (List.mem_of_mem_drop hevent)
  have hbound := s.firstRow_add_eventCount_le example_
  have hrow : s.firstRow example_ + event < 2 ^ 32 :=
    Nat.lt_succ_of_le (((Nat.add_le_add_left hlt.le _).trans hbound).trans hevents)
  rw [← UInt32.ofNat_add, UInt32.toNat_ofNat_of_lt' hrow]
  rfl

/-- The moments of all presentations are what the stage shows. -/
theorem flatMap_presentations (hheld : s.examples ≠ []) (hevents : s.events.length ≤ maxWord32)
    (hspan : ∀ k < s.examples.length, spans.getD k default = ⟨s.eventCount k, s.firstRow k⟩)
    (hstart : start + stage.epochs.toNat * stage.examples.toNat < 2 ^ 32) :
    (presentations stage (UInt32.ofNat start) s.examples.length).flatMap
        (fun (epoch, example_) => moments lastOnly spans epoch example_) =
      (s.showings stage start lastOnly).map fun x => { record := x.record, row := s.row x } := by
  unfold ExampleSet.showings
  rw [presentations_eq, List.flatMap_assoc, List.map_flatMap]
  refine List.flatMap_congr fun epoch hepoch => ?_
  rw [List.flatMap_map, List.map_flatMap]
  refine List.flatMap_congr fun k hk => ?_
  have hplace : epoch * stage.examples.toNat + k < stage.epochs.toNat * stage.examples.toNat :=
    row_index_lt (List.mem_range.1 hepoch) (List.mem_range.1 hk)
  have hcursor : (UInt32.ofNat start + UInt32.ofNat (epoch * stage.examples.toNat + k)).toNat =
      start + epoch * stage.examples.toNat + k := by
    have hword : start + (epoch * stage.examples.toNat + k) < 2 ^ 32 := by omega
    rw [← UInt32.ofNat_add, UInt32.toNat_ofNat_of_lt' hword, Nat.add_assoc]
  have hexample : (start + epoch * stage.examples.toNat + k) % s.examples.length < s.examples.length :=
    Nat.mod_lt _ (List.length_pos_of_ne_nil hheld)
  simp only [hcursor]
  rw [moments_eq hevents (hspan _ hexample), List.map_map]
  rfl

variable {source : PayloadSource} {writers : List Writer} {cursor : UInt32}

/-- The spans of a compiled set, as long as its rows are counted in a word. -/
theorem getD_spans (hexamples : source.examples.examples = CompiledExamples.exampleRecords 0 0 s.examples)
    (hevents : s.events.length ≤ maxWord32) {k : Nat} (hk : k < s.examples.length) :
    (source.examples.examples.map fun r => (⟨r.events.toNat, r.firstEvent.toNat⟩ : EventSpan)).toArray.getD k
      default = ⟨s.eventCount k, s.firstRow k⟩ := by
  have hbound := s.firstRow_add_eventCount_le k
  have hcount : s.eventCount k = s.examples[k].events.length := by
    rw [ExampleSet.eventCount, List.getD_eq_getElem?_getD, List.getElem?_map, List.getElem?_eq_getElem hk]
    rfl
  have hword {n : Nat} (hn : n ≤ maxWord32) : (UInt32.ofNat n).toNat = n :=
    UInt32.toNat_ofNat_of_lt' (Nat.lt_succ_of_le hn)
  rw [Array.getD_eq_getD_getElem?, List.getElem?_toArray, List.getElem?_map, hexamples,
    CompiledExamples.getElem?_exampleRecords, List.getElem?_eq_getElem hk, Option.map_some, Option.map_some,
    Option.getD_some, Nat.zero_add, Nat.zero_add, ← ExampleSet.firstRow, hword (by omega), hword (by omega), hcount]

section Writers

variable {recorders : List (Group × Nat)}
  (hreads : List.Forall₂ (fun recorder w => w.Reads source recorder.1 recorder.2) recorders writers)
include hreads

theorem lastTickOnly_of_reads : ∀ w ∈ writers, w.lastTickOnly = source.recording.lastOnly := by
  induction hreads with
  | nil =>
    intro w hw
    cases hw
  | cons hfirst _ ih =>
    intro w hw
    rcases List.mem_cons.1 hw with rfl | hrest
    · exact hfirst.lastTickOnly_eq
    · exact ih w hrest

/-- What is recorded by writers that read one source. -/
theorem record_eq (hrecorders : recorders ≠ []) (hheld : source.examples.examples ≠ [])
    (stage : StageDescriptor) (cursor : UInt32) :
    ∃ spans all, spans = (source.examples.examples.map fun r =>
        (⟨r.events.toNat, r.firstEvent.toNat⟩ : EventSpan)).toArray ∧
      all = (presentations stage (if stage.reset then 0 else cursor) spans.size).flatMap
        (fun (epoch, example_) => moments source.recording.lastOnly spans epoch example_) ∧
      record writers stage cursor = (some
        { ticks := all.map (·.record)
          outputs := writers.map fun w => ⟨w.group, w.subgroup, w.units, (all.map (·.row)).flatMap w.tick⟩ },
        (if stage.reset then 0 else cursor) + stage.epochs * stage.examples) := by
  have hflags := lastTickOnly_of_reads hreads
  cases hreads with
  | nil => exact absurd rfl hrecorders
  | @cons _ first _ rest hfirst _ =>
    have hlast : (first :: rest).any (·.lastTickOnly) = source.recording.lastOnly := by
      cases hflag : source.recording.lastOnly with
      | true => rw [List.any_cons, hflags first List.mem_cons_self, hflag, Bool.true_or]
      | false =>
        rw [List.any_eq_false]
        intro w hw
        simp [hflags w hw, hflag]
    have hspans : (source.examples.examples.map fun r =>
        (⟨r.events.toNat, r.firstEvent.toNat⟩ : EventSpan)).toArray.isEmpty = false := by
      simpa using hheld
    refine ⟨_, _, rfl, rfl, ?_⟩
    unfold record
    simp only [hfirst.spans_eq, hspans, hlast, List.flatMap_map, round_eq]
    rfl

/-- The cursor counts presentations. -/
theorem cursor_record (hrecorders : recorders ≠ []) (hheld : source.examples.examples ≠ [])
    (hstart : (if stage.reset then 0 else cursor) = UInt32.ofNat start) :
    (record writers stage cursor).2 = .ofNat (start + stage.epochs.toNat * stage.examples.toNat) := by
  obtain ⟨_, _, _, _, hrecord⟩ := record_eq hreads hrecorders hheld stage cursor
  rw [hrecord, hstart, UInt32.ofNat_add, UInt32.ofNat_mul, UInt32.ofNat_toNat, UInt32.ofNat_toNat]

end Writers

/-- The recording of a stage shows the events of the examples in their cyclic order. -/
theorem record_shows (hreads : List.Forall₂ (fun recorder w => w.Reads source recorder.1 recorder.2)
      source.topology.outputSubgroups writers)
    (hrecorders : source.topology.outputSubgroups ≠ []) (hheld : s.examples ≠ [])
    (hexamples : source.examples.examples = CompiledExamples.exampleRecords 0 0 s.examples)
    (hevents : s.events.length ≤ maxWord32)
    (hstart : (if stage.reset then 0 else cursor) = UInt32.ofNat start)
    (hbound : start + stage.epochs.toNat * stage.examples.toNat < 2 ^ 32) :
    ∃ recorded, (record writers stage cursor).1 = some recorded ∧
      recorded.Shows source.topology s (s.showings stage start source.recording.lastOnly) := by
  have hlength : source.examples.examples.length = s.examples.length := by
    rw [hexamples, CompiledExamples.length_exampleRecords]
  have hcompiled : source.examples.examples ≠ [] := by
    rw [← List.length_pos_iff, hlength, List.length_pos_iff]
    exact hheld
  obtain ⟨spans, all, hspans, hall, hrecord⟩ := record_eq hreads hrecorders hcompiled stage cursor
  have hsize : spans.size = s.examples.length := by rw [hspans, List.size_toArray, List.length_map, hlength]
  rw [hsize, hstart, flatMap_presentations hheld hevents
    (fun k hk => by rw [hspans]; exact getD_spans hexamples hevents hk) hbound] at hall
  have hrows : all.map (·.row) = (s.showings stage start source.recording.lastOnly).map s.row := by
    rw [hall, List.map_map]
    rfl
  refine ⟨_, congrArg Prod.fst hrecord, ?_, ?_⟩
  · rw [hall, List.map_map]
    rfl
  · rw [hrows, List.forall₂_map_right_iff]
    exact hreads.imp fun recorder w hw => Writer.records hw _

end Echo

end PerceptronMesh

import PerceptronMesh.Network.OutputText
import PerceptronMesh.Proofs.Example.Obtainable
import PerceptronMesh.Proofs.Numeric.Exact
import PerceptronMesh.Proofs.Payload.Total
import PerceptronMesh.Proofs.Topology.Links
import PerceptronMesh.Proofs.Topology.Outputs
import PerceptronMesh.Proofs.Wire.Items

/-!
The layout of recorded outputs as text, tick by tick. Ticks are written from what is remembered of
the ones before them. That comes to comparing each with the tick right before it, since a place that
is remembered is always the one of the last tick. The outputs of a group are those of its subgroups
one after another.
-/

namespace PerceptronMesh

open Numeric

namespace Text.Writing

variable {ε : Type}

theorem fault_append_eq_none_iff {a b : Writing ε} :
    (a ++ b).fault = none ↔ a.fault = none ∧ b.fault = none := by
  show (append a b).fault = none ↔ _
  unfold append
  cases ha : a.fault <;> simp [ha]

theorem fault_concat_eq_none_iff {parts : List (Writing ε)} :
    (concat parts).fault = none ↔ ∀ part ∈ parts, part.fault = none := by
  induction parts with
  | nil => exact iff_of_true rfl (by simp)
  | cons first rest ih =>
    rw [List.forall_mem_cons, ← ih]
    exact fault_append_eq_none_iff

theorem concat_map_ofLines (parts : List (List String)) :
    (concat (parts.map ofLines) : Writing ε) = ofLines parts.flatten := by
  induction parts with
  | nil => rfl
  | cons first rest ih =>
    rw [List.map_cons, List.flatten_cons, ← ofLines_append, ← ih]
    rfl

end Text.Writing

open Text

namespace SubgroupOutputs

/-- The output of a unit at a tick. -/
def value (o : SubgroupOutputs) (index unit : Nat) : UInt16 :=
  .ofNat (Wire.ofLittleEndian (Wire.item o.data 2 (index * o.units + unit)))

theorem words_eq {data : List UInt8} {count : Nat} (h : data.length = 2 * count) :
    words data = (List.range count).map fun unit => .ofNat (Wire.ofLittleEndian (Wire.item data 2 unit)) := by
  induction count generalizing data with
  | zero =>
    rw [List.length_eq_zero_iff.1 h]
    rfl
  | succ count ih =>
    match data, h with
    | low :: high :: rest, h =>
      have hrest : rest.length = 2 * count := by
        simp only [List.length_cons] at h
        omega
      have hnext (unit : Nat) : Wire.item (low :: high :: rest) 2 (unit + 1) = Wire.item rest 2 unit := by
        rw [Wire.item, Nat.succ_mul]
        rfl
      rw [words, ih hrest, List.range_succ_eq_map, List.map_cons, List.map_map]
      simp only [Function.comp_def, Nat.succ_eq_add_one, hnext]
      rfl

/-- The outputs at a tick that the data holds. -/
theorem tick_eq (o : SubgroupOutputs) {index : Nat} (h : (index + 1) * o.width ≤ o.data.length) :
    o.tick index = .ok ((List.range o.units).map (o.value index)) := by
  rw [Nat.succ_mul] at h
  have hlength : ((o.data.drop (index * o.width)).take o.width).length = 2 * o.units := by
    rw [List.length_take, List.length_drop]
    unfold width at h ⊢
    omega
  rw [o.tick_of_le h, words_eq hlength]
  congr 1
  refine List.map_congr_left fun unit hunit => ?_
  have hlt := List.mem_range.1 hunit
  have hstart : index * o.width + unit * 2 = (index * o.units + unit) * 2 := by
    rw [width, Nat.add_mul, Nat.mul_comm 2, Nat.mul_assoc]
  have hend : min 2 (o.width - unit * 2) = 2 := by
    rw [width]
    omega
  rw [value, Wire.item, Wire.item, List.drop_take, List.take_take, List.drop_drop, hstart, hend]

end SubgroupOutputs

namespace RecordedOutputs

/-- Every subgroup of a group has a block that holds its units at so many ticks. -/
def Covers (r : RecordedOutputs) (g : Group) (count : Nat) : Prop :=
  ∀ subgroup < g.subgroups, ∃ o ∈ r.subgroup? g.id subgroup,
    o.units = g.subgroupUnits subgroup ∧ count * o.width ≤ o.data.length

instance (r : RecordedOutputs) (g : Group) (count : Nat) : Decidable (r.Covers g count) :=
  inferInstanceAs (Decidable (∀ subgroup < g.subgroups, ∃ o ∈ r.subgroup? g.id subgroup,
    o.units = g.subgroupUnits subgroup ∧ count * o.width ≤ o.data.length))

/-- The outputs of a subgroup at a tick, none at all if it has no block. -/
def subgroupOutputs (r : RecordedOutputs) (index : Nat) (group : GroupId) (subgroup : Nat) : List UInt16 :=
  match r.subgroup? group subgroup with
  | some o => (List.range o.units).map (o.value index)
  | none => []

theorem subgroupOutputs_of_mem {r : RecordedOutputs} {group : GroupId} {subgroup : Nat} {o : SubgroupOutputs}
    (h : o ∈ r.subgroup? group subgroup) (index : Nat) :
    r.subgroupOutputs index group subgroup = (List.range o.units).map (o.value index) := by
  rw [subgroupOutputs, Option.mem_def.1 h]

/-- The outputs of a group at a tick: those of its subgroups, one after another. -/
def outputsOf (r : RecordedOutputs) (index : Nat) (g : Group) : List UInt16 :=
  (List.range g.subgroups).flatMap (r.subgroupOutputs index g.id)

end RecordedOutputs

/-- The targets of a group's units in a row. -/
def Group.targetsAt (g : Group) (row : Nat) : List UnitValue :=
  (List.range g.units).map fun unit => g.targets.getD (row * g.units + unit) none

namespace OutputText

/-- A tick opens an example if it is the first of all or of another epoch or example than the tick
before it. -/
def OpensAt (ticks : List TickRecord) (i : Nat) : Prop :=
  i = 0 ∨ (ticks[i - 1]?.map fun r => (r.epoch, r.example_)) ≠ ticks[i]?.map fun r => (r.epoch, r.example_)

instance (ticks : List TickRecord) (i : Nat) : Decidable (OpensAt ticks i) :=
  inferInstanceAs (Decidable (_ ∨ _))

/-- The lines that open an example. -/
def opening (groups : List Group) (figure : UInt32) (record : TickRecord) : List String :=
  [s!"{record.epoch} {record.example_}", s!"{figure} {groups.length}", "0 -1"] ++
    groups.flatMap fun g => s!"{g.units} 1" :: List.replicate g.units "0.000000 0"

/-- The lines of a group at a tick, one for each unit. -/
def block (g : Group) (outputs : List UInt16) (targets : List UnitValue) : List String :=
  s!"{g.units} 1" :: (List.range g.units).map fun unit =>
    s!"{outputNumber (outputs.getD unit 0)} {targetText (targets.getD unit none)}"

/-- The lines of all ticks. -/
def layout (groups : List Group) (figure : UInt32) (ticks : List TickRecord)
    (outputs : Nat → Group → List UInt16) (targets : TickRecord → Group → List UnitValue) : List String :=
  (ticks.mapIdx fun i record =>
    (if OpensAt ticks i then opening groups figure record else []) ++
      s!"{record.tick} {record.event}" ::
      groups.flatMap fun g => block g (outputs i g) (targets record g)).flatten

theorem layout_eq_nil_iff {groups : List Group} {figure : UInt32} {ticks : List TickRecord}
    {outputs : Nat → Group → List UInt16} {targets : TickRecord → Group → List UnitValue} :
    layout groups figure ticks outputs targets = [] ↔ ticks = [] := by
  cases ticks with
  | nil => exact iff_of_true rfl rfl
  | cons first rest => simp [layout, List.mapIdx_cons]

theorem Source.exampleLines_eq (source : Source) (record : TickRecord) :
    source.exampleLines record = opening source.groups source.ticksPerExample record := by
  have hzero : s!"{outputNumber 0} 0" = "0.000000 0" := by decide
  unfold Source.exampleLines opening
  rw [hzero]

/-- Whether a tick is the first of its example: none came before it, or one of another epoch or
example. -/
def opensExample (previous : Option TickRecord) (record : TickRecord) : Bool :=
  match previous with
  | none => true
  | some before => before.epoch != record.epoch || before.example_ != record.example_

theorem opensExample_iff (ticks : List TickRecord) {i : Nat} {record : TickRecord}
    (hrecord : ticks[i]? = some record) :
    opensExample ((none :: ticks.map some).getD i none) record = true ↔ OpensAt ticks i := by
  cases i with
  | zero => exact iff_of_true rfl (.inl rfl)
  | succ i =>
    have hlt : i < ticks.length := Nat.lt_of_succ_lt (List.getElem?_eq_some_iff.1 hrecord).1
    have hbefore : ticks[i]? = some ticks[i] := List.getElem?_eq_getElem hlt
    have hprevious : (none :: ticks.map some).getD (i + 1) none = some ticks[i] := by
      rw [List.getD_eq_getElem?_getD, List.getElem?_cons_succ, List.getElem?_map, hbefore]
      rfl
    rw [hprevious, OpensAt, Nat.add_sub_cancel, hbefore, hrecord]
    by_cases hepoch : ticks[i].epoch = record.epoch
    · simp [opensExample, hepoch]
    · simp [opensExample, hepoch]

namespace Source

variable {source : Source}

/-- The text of a tick that is told of the one before it. -/
def tick (source : Source) (index : Nat) (previous : Option TickRecord) (record : TickRecord) :
    Writing Error :=
  match source.firstRow index record with
  | .error e => ⟨[], some e⟩
  | .ok first =>
    .ofLines (if opensExample previous record then source.exampleLines record else []) ++
      source.tickLines index { firstRow := first } record

/-- What is remembered after a tick: its epoch, its example and where the events of that begin. -/
def Remembers (source : Source) (place : Place) : (previous : Option TickRecord) → Prop
  | none => place = {}
  | some before => place.epoch = some before.epoch ∧ place.example_ = some before.example_ ∧
      source.firstRows[before.example_.toNat]? = some place.firstRow

/-- An example is opened exactly if the tick before is of another epoch or example. Otherwise the row
that is remembered is the one that would be looked up. -/
theorem enter_eq {place : Place} {previous : Option TickRecord} (h : source.Remembers place previous)
    (index : Nat) (record : TickRecord) : source.enter index place record =
      (source.firstRow index record).map fun first =>
        (⟨some record.epoch, some record.example_, first⟩,
          if opensExample previous record then source.exampleLines record else []) := by
  have hopens {entered : Place} (hentered : place.enterEpoch record = entered)
      (hepoch : entered.epoch = some record.epoch) (hnew : entered.example_ ≠ some record.example_)
      (hopen : opensExample previous record = true) : source.enter index place record =
        (source.firstRow index record).map fun first => (⟨some record.epoch, some record.example_, first⟩,
          if opensExample previous record then source.exampleLines record else []) := by
    unfold enter
    rw [hentered, if_neg hnew, hopen, if_pos rfl, hepoch]
    cases source.firstRow index record <;> rfl
  cases previous with
  | none =>
    obtain rfl : place = {} := h
    exact hopens (if_neg nofun) rfl nofun rfl
  | some before =>
    obtain ⟨hepoch, hexample, hrow⟩ := h
    by_cases hsameEpoch : before.epoch = record.epoch
    · have hentered : place.enterEpoch record = place := if_pos (hsameEpoch ▸ hepoch)
      by_cases hsame : before.example_ = record.example_
      · have hfirst : source.firstRow index record = .ok place.firstRow := by
          rw [firstRow, ← hsame, hrow]
        have hopen : opensExample (some before) record = false := by simp [opensExample, hsameEpoch, hsame]
        unfold enter
        rw [hentered, if_pos (hsame ▸ hexample), hfirst, hopen, ← hsameEpoch, ← hsame, ← hepoch, ← hexample]
        rfl
      · refine hopens hentered (hsameEpoch ▸ hepoch) ?_ (by simp [opensExample, hsame])
        rw [hexample, Ne, Option.some_inj]
        exact hsame
    · refine hopens (if_neg ?_) rfl nofun (by simp [opensExample, hsameEpoch])
      rw [hepoch, Option.some_inj]
      exact hsameEpoch

/-- Ticks are written one after another, each as if told of the one before it. -/
theorem ticks_eq_concat {place : Place} {previous : Option TickRecord} (h : source.Remembers place previous)
    (index : Nat) (records : List TickRecord) : source.ticks index place records =
      .concat (records.mapIdx fun i record =>
        source.tick (index + i) ((previous :: records.map some).getD i none) record) := by
  induction records generalizing index place previous with
  | nil => rfl
  | cons record rest ih =>
    rw [Source.ticks, enter_eq h, List.mapIdx_cons]
    simp only [List.map_cons, List.getD_cons_succ]
    cases hfirst : source.firstRow index record with
    | error e =>
      have hfault : source.tick index previous record = ⟨[], some e⟩ := by rw [tick, hfirst]
      show _ = source.tick index previous record ++ Writing.concat _
      rw [hfault]
      rfl
    | ok first =>
      have hremembers : source.Remembers ⟨some record.epoch, some record.example_, first⟩ (some record) := by
        refine ⟨rfl, rfl, ?_⟩
        unfold Source.firstRow at hfirst
        split at hfirst
        · cases hfirst
          assumption
        · cases hfirst
      have htick : source.tick index previous record =
          .ofLines (if opensExample previous record then source.exampleLines record else []) ++
            source.tickLines index { firstRow := first } record := by rw [tick, hfirst]
      show _ ++ source.ticks (index + 1) _ rest = source.tick index previous record ++ Writing.concat _
      rw [ih hremembers, htick]
      simp only [Nat.add_right_comm index]
      rfl

theorem length_of_outputs {g : Group} {index : Nat} {outputs : List UInt16}
    (h : source.outputs g index = .ok outputs) : outputs.length = g.units := by
  unfold Source.outputs at h
  obtain ⟨blocks, _, h⟩ := bind_eq_ok_iff.1 h
  dsimp only at h
  split at h
  · cases h
  · cases h
    rw [List.length_take]
    omega

theorem groupLines_eq {g : Group} {index row : Nat} {outputs : List UInt16}
    (h : source.outputs g index = .ok outputs) :
    source.groupLines index row g = .ofLines (block g outputs (g.targetsAt row)) := by
  have hlines : outputs.mapIdx (fun unit raw =>
      s!"{outputNumber raw} {targetText (g.targets.getD (row * g.units + unit) none)}") =
      (List.range g.units).map fun unit =>
        s!"{outputNumber (outputs.getD unit 0)} {targetText ((g.targetsAt row).getD unit none)}" := by
    have hlength := length_of_outputs h
    apply List.ext_getElem
    · simp [hlength]
    · intro unit hunit _
      rw [List.length_mapIdx, hlength] at hunit
      simp [Group.targetsAt, hunit, hlength]
  unfold Source.groupLines Writing.after
  rw [h, block, ← hlines]

/-- A tick whose example is held and whose groups all have outputs. -/
theorem tick_eq {index first : Nat} {previous : Option TickRecord} {record : TickRecord}
    {outputs : Group → List UInt16} (hfirst : source.firstRow index record = .ok first)
    (houtputs : ∀ g ∈ source.groups, source.outputs g index = .ok (outputs g)) :
    source.tick index previous record = .ofLines
      ((if opensExample previous record then opening source.groups source.ticksPerExample record else []) ++
        s!"{record.tick} {record.event}" :: source.groups.flatMap fun g =>
          block g (outputs g) (g.targetsAt (first + record.event.toNat))) := by
  have hgroups : source.groups.map (source.groupLines index (first + record.event.toNat)) =
      (source.groups.map fun g => block g (outputs g) (g.targetsAt (first + record.event.toNat))).map
        Writing.ofLines := by
    rw [List.map_map]
    exact List.map_congr_left fun g hg => groupLines_eq (houtputs g hg)
  unfold tick tickLines
  simp only [hfirst, hgroups, Writing.concat_map_ofLines, Writing.ofLines_append, exampleLines_eq,
    List.singleton_append, List.flatMap_def]

/-- What a tick without fault was written from. -/
theorem exists_of_tick_fault {index : Nat} {previous : Option TickRecord} {record : TickRecord}
    (h : (source.tick index previous record).fault = none) :
    (∃ first, source.firstRow index record = .ok first) ∧
      ∀ g ∈ source.groups, ∃ outputs, source.outputs g index = .ok outputs := by
  unfold tick at h
  cases hfirst : source.firstRow index record with
  | error e =>
    rw [hfirst] at h
    cases h
  | ok first =>
    rw [hfirst] at h
    refine ⟨⟨first, rfl⟩, fun g hg => ?_⟩
    have hlines := (Writing.fault_append_eq_none_iff.1 h).2
    have hgroup := Writing.fault_concat_eq_none_iff.1 (Writing.fault_append_eq_none_iff.1 hlines).2 _
      (List.mem_map_of_mem hg)
    unfold Source.groupLines Writing.after at hgroup
    cases houtputs : source.outputs g index with
    | error e =>
      rw [houtputs] at hgroup
      cases hgroup
    | ok outputs => exact ⟨outputs, rfl⟩

end Source

theorem getElem?_firstRows (examples : List Example) (row k : Nat) :
    (firstRows row examples)[k]? =
      examples[k]?.map fun _ => row + ((examples.map (·.events.length)).take k).sum := by
  induction examples generalizing row k with
  | nil => rfl
  | cons e rest ih =>
    cases k with
    | zero => rfl
    | succ k =>
      rw [firstRows, List.getElem?_cons_succ, List.getElem?_cons_succ, ih, List.map_cons, List.take_succ_cons,
        List.sum_cons, Nat.add_assoc]

/-- What the text of a recording is written from. -/
def source (t : Topology) (s : ExampleSet) (settings : Settings) (recorded : RecordedOutputs) : Source :=
  { groups := t.chained, recorded
    firstRows := (firstRows 0 s.examples).toArray
    ticksPerExample := ticksOnFirstExample s settings }

section Text

variable {t : Topology} {s : ExampleSet} {settings : Settings} {recorded : RecordedOutputs}

/-- An example is found if the set holds it. -/
theorem firstRow_source_eq_ok_iff {index first : Nat} {record : TickRecord} :
    (source t s settings recorded).firstRow index record = .ok first ↔
      record.example_.toNat < s.examples.length ∧ first = s.firstRow record.example_.toNat := by
  have hrow : (firstRows 0 s.examples).toArray[record.example_.toNat]? =
      s.examples[record.example_.toNat]?.map fun _ => s.firstRow record.example_.toNat := by
    rw [List.getElem?_toArray, getElem?_firstRows, Nat.zero_add]
    rfl
  unfold Source.firstRow source
  dsimp only
  rw [hrow]
  by_cases hheld : record.example_.toNat < s.examples.length
  · rw [List.getElem?_eq_getElem hheld]
    simp [hheld, eq_comm]
  · rw [List.getElem?_eq_none (Nat.not_lt.1 hheld)]
    simp [hheld]

theorem mapM_group_eq_ok {ids : List GroupId} (h : ∀ id ∈ ids, id < t.groups.length) :
    ids.mapM t.group = .ok (ids.filterMap t.group?) := by
  induction ids with
  | nil => rfl
  | cons id rest ih =>
    obtain ⟨hid, hrest⟩ := List.forall_mem_cons.1 h
    have hgroup : t.group? id = some t.groups[id] := List.getElem?_eq_getElem hid
    rw [List.mapM_cons, Topology.group_eq_ok_iff.2 hgroup, ih hrest, List.filterMap_cons_some hgroup]
    rfl

theorem outputText_eq (ht : t.Sound) :
    outputText t s settings recorded = .concat (recorded.ticks.mapIdx fun i record =>
      (source t s settings recorded).tick i ((none :: recorded.ticks.map some).getD i none) record) := by
  have hstart : (source t s settings recorded).Remembers {} none := rfl
  have hticks := Source.ticks_eq_concat hstart 0 recorded.ticks
  simp only [Nat.zero_add] at hticks
  rw [← hticks]
  unfold outputText
  rw [mapM_group_eq_ok ht.chain_lt]
  rfl

/-- The text of a recording whose examples are held and whose groups have outputs at every tick. -/
theorem outputText_eq_layout (ht : t.Sound) {outputs : Nat → Group → List UInt16}
    (hheld : ∀ record ∈ recorded.ticks, record.example_.toNat < s.examples.length)
    (houtputs : ∀ i < recorded.ticks.length, ∀ g ∈ t.chained,
      (source t s settings recorded).outputs g i = .ok (outputs i g)) :
    outputText t s settings recorded = .ofLines
      (layout t.chained (ticksOnFirstExample s settings) recorded.ticks outputs fun record g =>
        g.targetsAt (s.firstRow record.example_.toNat + record.event.toNat)) := by
  rw [outputText_eq ht, layout, ← Writing.concat_map_ofLines]
  congr 1
  apply List.ext_getElem?
  intro i
  rw [List.getElem?_map, List.getElem?_mapIdx, List.getElem?_mapIdx, Option.map_map]
  cases hrecord : recorded.ticks[i]? with
  | none => rfl
  | some record =>
    have hmem := List.mem_of_getElem? hrecord
    have hlt := (List.getElem?_eq_some_iff.1 hrecord).1
    rw [Option.map_some, Option.map_some,
      Source.tick_eq (firstRow_source_eq_ok_iff.2 ⟨hheld record hmem, rfl⟩) (houtputs i hlt)]
    simp only [Function.comp_apply, opensExample_iff recorded.ticks hrecord]
    rfl

/-- A text without fault had an example and outputs for every tick. -/
theorem exists_outputs_of_fault (ht : t.Sound) (h : (outputText t s settings recorded).fault = none) :
    (∀ record ∈ recorded.ticks, record.example_.toNat < s.examples.length) ∧
      ∃ outputs : Nat → Group → List UInt16, ∀ i < recorded.ticks.length, ∀ g ∈ t.chained,
        (source t s settings recorded).outputs g i = .ok (outputs i g) := by
  rw [outputText_eq ht, Writing.fault_concat_eq_none_iff] at h
  have htick (i : Nat) (hi : i < recorded.ticks.length) :=
    Source.exists_of_tick_fault (h _ (List.mem_mapIdx.2 ⟨i, hi, rfl⟩))
  refine ⟨fun record hrecord => ?_,
    fun i g => ((source t s settings recorded).outputs g i).toOption.getD [], fun i hi g hg => ?_⟩
  · obtain ⟨i, hi, rfl⟩ := List.mem_iff_getElem.1 hrecord
    obtain ⟨⟨_, hfirst⟩, _⟩ := htick i hi
    exact (firstRow_source_eq_ok_iff.1 hfirst).1
  · obtain ⟨_, hgroups⟩ := htick i hi
    obtain ⟨outputs, houtputs⟩ := hgroups g hg
    simp only [houtputs, Except.toOption, Option.getD_some]

/-- A recording that covers a group has an output for each of its units. -/
theorem length_outputsOf (ht : t.Sound) {g : Group} (hg : g ∈ t.chained) {count : Nat}
    (hcovers : recorded.Covers g count) (index : Nat) : (recorded.outputsOf index g).length = g.units := by
  obtain ⟨i, hi⟩ := List.mem_iff_getElem?.1 (Topology.mem_groups_of_mem_chained hg)
  have hblocks (n : Nat) (hn : n ≤ g.subgroups) :
      ((List.range n).flatMap (recorded.subgroupOutputs index g.id)).length = (g.subunits.take n).sum := by
    induction n with
    | zero => rfl
    | succ n ih =>
      obtain ⟨o, ho, hunits, _⟩ := hcovers n hn
      rw [List.range_succ, List.flatMap_append, List.length_append, ih (Nat.le_of_succ_le hn), sum_take_succ,
        List.flatMap_singleton, RecordedOutputs.subgroupOutputs_of_mem ho]
      simp [hunits, Group.subgroupUnits]
  rw [RecordedOutputs.outputsOf, hblocks _ (Nat.le_refl _), Group.subgroups, List.take_length,
    (ht.placed hi).sum_subunits ht.cap_pos]

theorem outputs_of_covers (ht : t.Sound) {g : Group} (hg : g ∈ t.chained) {index : Nat}
    (hcovers : recorded.Covers g recorded.ticks.length) (hindex : index < recorded.ticks.length) :
    (source t s settings recorded).outputs g index = .ok (recorded.outputsOf index g) := by
  have hlength := length_outputsOf ht hg hcovers index
  have htake : (recorded.outputsOf index g).take g.units = recorded.outputsOf index g := by
    rw [← hlength, List.take_length]
  unfold Source.outputs
  refine bind_eq_ok_iff.2 ⟨(List.range g.subgroups).map (recorded.subgroupOutputs index g.id), mapM_eq_ok ?_, ?_⟩
  · intro subgroup hsubgroup
    obtain ⟨o, ho, _, hheld⟩ := hcovers subgroup (List.mem_range.1 hsubgroup)
    have hblock : (source t s settings recorded).recorded.subgroup? g.id subgroup = some o := ho
    rw [hblock, RecordedOutputs.subgroupOutputs_of_mem ho]
    exact o.tick_eq ((Nat.mul_le_mul_right _ hindex).trans hheld)
  · rw [← List.flatMap_def, ← RecordedOutputs.outputsOf]
    dsimp only
    rw [hlength, if_neg (Nat.lt_irrefl _), htake]
    rfl

/-- The text of a recording that covers all groups, with ticks of examples that are held. -/
theorem outputText_of_covers (ht : t.Sound)
    (hheld : ∀ record ∈ recorded.ticks, record.example_.toNat < s.examples.length)
    (hcovers : ∀ g ∈ t.chained, recorded.Covers g recorded.ticks.length) :
    outputText t s settings recorded = .ofLines
      (layout t.chained (ticksOnFirstExample s settings) recorded.ticks recorded.outputsOf fun record g =>
        g.targetsAt (s.firstRow record.example_.toNat + record.event.toNat)) :=
  outputText_eq_layout ht hheld fun _ hindex g hg => outputs_of_covers ht hg (hcovers g hg) hindex

end Text

section Duration

/-- The whole part of a time, which of a negative one and of what is no finite number is 0. -/
def wholeTime (t : Binary64) : Nat :=
  match t.reading with
  | .finite false significand power => ⌊(significand : ℚ) * 2 ^ power⌋₊
  | _ => 0

variable {settings : Settings} {s : ExampleSet} {event : Event}

/-- How long an event may last at most, as it gives or the set. -/
def longest? (s : ExampleSet) (event : Event) : Option Binary64 := event.times.max.or s.header.times.max

/-- Ticks of an event: those of one interval more than it has time, or the most of the network if
it has no time. -/
def lasts (settings : Settings) (s : ExampleSet) (event : Event) : Nat :=
  match longest? s event with
  | none => settings.globalMaxTicks.toNat
  | some t => (wholeTime t + 1) * settings.ticksPerInterval

/-- The ticks of an event are counted in a word. -/
def Fits (settings : Settings) (s : ExampleSet) (event : Event) : Prop :=
  ∀ {t : Binary64}, longest? s event = some t →
    t.reading ≠ .infinite false ∧ (wholeTime t + 1) * settings.ticksPerInterval ≤ maxWord32

theorem truncate_eq_wholeTime {t : Binary64} (h : t.reading ≠ .infinite false) :
    t.truncate 0 maxWord32 = min (maxWord32 : Int) (wholeTime t) := by
  unfold Binary64.truncate wholeTime
  match hreading : t.reading with
  | .notANumber => rfl
  | .infinite true => rfl
  | .infinite false => exact absurd hreading h
  | .finite true significand power =>
    dsimp only
    rw [if_pos rfl]
    omega
  | .finite false significand power =>
    dsimp only
    rw [Binary64.wholePart_eq_floor, if_neg Bool.false_ne_true]
    omega

theorem toNat_eventTicks (h : Fits settings s event) :
    (eventTicks settings (event.times.or s.header.times)).toNat = lasts settings s event := by
  unfold eventTicks lasts
  rw [show (event.times.or s.header.times).max = longest? s event from rfl]
  cases hlongest : longest? s event with
  | none => rfl
  | some t =>
    obtain ⟨hfinite, hfits⟩ := h hlongest
    dsimp only
    rw [truncate_eq_wholeTime hfinite, UInt32.toNat_mul, toNat_saturatingAdd, UInt32.toNat_ofNat',
      UInt32.toNat_ofNat', UInt32.toNat_one]
    rcases Nat.eq_zero_or_pos settings.ticksPerInterval with hnone | hpos
    · rw [hnone, Nat.zero_mod, Nat.mul_zero, Nat.mul_zero, Nat.zero_mod]
    · have hbound : wholeTime t + 1 ≤ maxWord32 := (Nat.le_mul_of_pos_right _ hpos).trans hfits
      have hticks : settings.ticksPerInterval < 2 ^ 32 :=
        Nat.lt_succ_of_le ((Nat.le_mul_of_pos_left _ (Nat.succ_pos _)).trans hfits)
      have hwhole : min ((min (maxWord32 : Int) (wholeTime t)).toNat % 2 ^ 32 + 1) maxWord32 = wholeTime t + 1 := by
        have hfinal : maxWord32 = 2 ^ 32 - 1 := rfl
        omega
      rw [hwhole, Nat.mod_eq_of_lt hticks]
      exact Nat.mod_eq_of_lt (Nat.lt_succ_of_le hfits)

/-- A sum of words that is cut off at every step is cut off once, and does not wrap. -/
theorem toNat_foldl_min {α : Type} (count : α → UInt32) (cap : UInt32) (items : List α) {start : UInt32}
    (hstart : start ≤ cap) :
    (items.foldl (fun sum item => min (saturatingAdd sum (count item)) cap) start).toNat =
      min cap.toNat (start.toNat + (items.map fun item => (count item).toNat).sum) := by
  induction items generalizing start with
  | nil => simpa using UInt32.le_iff_toNat_le.1 hstart
  | cons first rest ih =>
    have hcap : cap.toNat ≤ maxWord32 := Nat.le_of_lt_succ cap.toNat_lt
    have hstep : (min (saturatingAdd start (count first)) cap).toNat =
        min (start.toNat + (count first).toNat) cap.toNat := by
      rw [toNat_min32, toNat_saturatingAdd]
      omega
    have hlater : min (saturatingAdd start (count first)) cap ≤ cap := by
      rw [UInt32.le_iff_toNat_le, hstep]
      exact Nat.min_le_right ..
    rw [List.foldl_cons, ih hlater, hstep, List.map_cons, List.sum_cons]
    omega

theorem ticksOnFirstExample_eq {first : Example} {rest : List Example} (hfirst : s.examples = first :: rest)
    (hfits : ∀ event ∈ first.events, Fits settings s event) :
    (ticksOnFirstExample s settings).toNat =
      min settings.globalMaxTicks.toNat (first.events.map (lasts settings s)).sum := by
  have hticks : first.events.map (fun event => (eventTicks settings (event.times.or s.header.times)).toNat) =
      first.events.map (lasts settings s) :=
    List.map_congr_left fun event hevent => toNat_eventTicks (hfits event hevent)
  have hfold := toNat_foldl_min (fun event : Event => eventTicks settings (event.times.or s.header.times))
    settings.globalMaxTicks first.events (UInt32.zero_le)
  rw [hticks, UInt32.toNat_zero, Nat.zero_add] at hfold
  unfold ticksOnFirstExample
  rw [hfirst]
  exact hfold

end Duration

/-- A recording that covers all groups of the output chain, with ticks of examples that are held,
is laid out in full. The ticks of the first example are those of its events, up to the most of the
network, which is counted in a word. -/
theorem text_of_covers {t : Topology} (ht : t.Obtained) (s : ExampleSet) (settings : Settings)
    {recorded : RecordedOutputs} (hheld : ∀ record ∈ recorded.ticks, record.example_.toNat < s.examples.length)
    (hcovers : ∀ g ∈ t.chained, recorded.Covers g recorded.ticks.length) :
    outputText t s settings recorded = .ofLines
        (layout t.chained (ticksOnFirstExample s settings) recorded.ticks recorded.outputsOf fun record g =>
          g.targetsAt (s.firstRow record.example_.toNat + record.event.toNat)) ∧
      (∀ g ∈ t.chained, ∀ index, (recorded.outputsOf index g).length = g.units) ∧
      (s.examples = [] → ticksOnFirstExample s settings = 0) ∧
      settings.globalMaxTicks.toNat = (settings.intervals * settings.ticksPerInterval + 1) % Nat.pow 2 32 ∧
      ∀ first rest, s.examples = first :: rest → (∀ event ∈ first.events, Fits settings s event) →
        (ticksOnFirstExample s settings).toNat =
          min settings.globalMaxTicks.toNat (first.events.map (lasts settings s)).sum := by
  refine ⟨?_, ?_, ?_, settings.toNat_globalMaxTicks, ?_⟩
  · exact outputText_of_covers ht.sound hheld hcovers
  · exact fun g hg index => length_outputsOf ht.sound hg (hcovers g hg) index
  · intro hnone
    unfold ticksOnFirstExample
    rw [hnone]
  · exact fun first rest hfirst hfits => ticksOnFirstExample_eq hfirst hfits

/-- Three units in two subgroups are recorded at the events of two examples, the second of them in
two epochs. -/
theorem text_of_covers_three_units :
    let s : ExampleSet := { label := "set", examples := [{ events := [{}] }, { events := [{}] }] }
    let recorded : RecordedOutputs :=
      { ticks := [⟨0, 0, 0, 1⟩, ⟨0, 1, 0, 1⟩, ⟨1, 1, 0, 1⟩]
        outputs := [⟨1, 0, 2, [0, 0, 0, 128, 0, 64, 0, 0, 0, 0, 0, 0]⟩, ⟨1, 1, 1, [0, 64, 0, 0, 0, 128]⟩] }
    let lines : List String :=
      ["0 0", "2 1", "0 -1", "3 1", "0.000000 0", "0.000000 0", "0.000000 0",
        "1 0", "3 1", "0.000000 -", "1.000000 -", "0.500000 -",
        "0 1", "2 1", "0 -1", "3 1", "0.000000 0", "0.000000 0", "0.000000 0",
        "1 0", "3 1", "0.500000 -", "0.000000 -", "0.000000 -",
        "1 1", "2 1", "0 -1", "3 1", "0.000000 0", "0.000000 0", "0.000000 0",
        "1 0", "3 1", "0.000000 -", "0.000000 -", "1.000000 -"]
    ∃ t id grown, Topology.make 2 = .ok t ∧
      t.addGroup 3 (Roles.ofList [.output]) none none (some "out") = .ok (id, grown) ∧
      (∀ record ∈ recorded.ticks, record.example_.toNat < s.examples.length) ∧
      (∀ g ∈ grown.chained, recorded.Covers g recorded.ticks.length) ∧
      outputText grown s {} recorded = .ofLines lines := by
  intro s recorded lines
  obtain ⟨t, id, grown, hmake, hgrown, hcovers, hlines⟩ : ∃ t id grown, Topology.make 2 = .ok t ∧
      t.addGroup 3 (Roles.ofList [.output]) none none (some "out") = .ok (id, grown) ∧
      (∀ g ∈ grown.chained, recorded.Covers g recorded.ticks.length) ∧
      layout grown.chained (ticksOnFirstExample s {}) recorded.ticks recorded.outputsOf (fun record g =>
        g.targetsAt (s.firstRow record.example_.toNat + record.event.toNat)) = lines :=
    ⟨_, _, _, rfl, rfl, by decide, by decide⟩
  have hheld : ∀ record ∈ recorded.ticks, record.example_.toNat < s.examples.length := by decide
  have htext := (text_of_covers (.addGroup (.make hmake) hgrown) s {} hheld hcovers).1
  rw [hlines] at htext
  exact ⟨t, id, grown, hmake, hgrown, hheld, hcovers, htext⟩

end OutputText

end PerceptronMesh

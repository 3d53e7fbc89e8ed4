import PerceptronMesh.Proofs.Example.Lists
import PerceptronMesh.Proofs.Network.OutputLayout
import PerceptronMesh.Proofs.Placement.Recording

/-!
What a recording agrees with. The loopback records ticks of examples that it holds, and outputs for
every unit of the output groups at each of them; there are no ticks exactly if it presents no event.
-/

namespace PerceptronMesh

open Numeric

/-- The ticks of a recording are ticks of examples that a set holds, and it has outputs at every
tick for the units of all output groups. -/
structure RecordedOutputs.Matches (r : RecordedOutputs) (t : Topology) (s : ExampleSet) : Prop where
  held : ∀ record ∈ r.ticks, record.example_.toNat < s.examples.length
  covers : ∀ g ∈ t.outputGroups, r.Covers g r.ticks.length

namespace RecordedOutputs

variable {r : RecordedOutputs} {t other : Topology} {s : ExampleSet}

/-- What a recording agrees with of a topology is its frame. -/
theorem Matches.of_frame (h : r.Matches t s) (hframe : t.frame = other.frame) {held : ExampleSet}
    (hexamples : held.examples = s.examples) : r.Matches other held := by
  refine ⟨hexamples ▸ h.held, ?_⟩
  intro g hg
  obtain ⟨before, hbefore, hsame⟩ := Topology.exists_outputGroup_of_frame hframe hg
  obtain ⟨hid, _, hsubunits⟩ := Topology.group_fields_of_frame hsame
  have hcovers := h.covers before hbefore
  unfold Covers Group.subgroups Group.subgroupUnits at hcovers ⊢
  rwa [hid, hsubunits] at hcovers

/-- A recording of one block for each output subgroup covers all output groups. -/
theorem covers_of_records {rows : List Nat} (ht : t.Sound) (h : List.Forall₂
      (fun recorder o => SubgroupOutputs.Records o recorder.1 recorder.2 rows) t.outputSubgroups r.outputs)
    {g : Group} (hg : g ∈ t.outputGroups) : r.Covers g rows.length := by
  intro subgroup hsubgroup
  have hrecorder : (g, subgroup) ∈ t.outputSubgroups :=
    List.mem_flatMap.2 ⟨g, hg, List.mem_map.2 ⟨subgroup, List.mem_range.2 hsubgroup, rfl⟩⟩
  obtain ⟨own, hown, hrecords⟩ := Binding.exists_of_forall₂ h hrecorder
  cases hfound : r.subgroup? g.id subgroup with
  | none =>
    have hother := List.find?_eq_none.1 hfound own hown
    simp [hrecords.group_eq, hrecords.subgroup_eq] at hother
  | some o =>
    obtain ⟨⟨named, number⟩, hnamed, ho⟩ := Binding.exists_of_forall₂ h.flip (List.mem_of_find?_eq_some hfound)
    have hids := List.find?_some hfound
    simp only [Bool.and_eq_true, decide_eq_true_eq, ho.group_eq, ho.subgroup_eq] at hids
    obtain ⟨hid, rfl⟩ := hids
    obtain ⟨_, hmember, hpair⟩ := List.mem_flatMap.1 hnamed
    obtain ⟨_, _, hpair⟩ := List.mem_map.1 hpair
    cases hpair
    -- The block is found by the group's number, which no other group has.
    have hsame : named = g := by
      have hfirst := ht.group?_id (List.mem_of_mem_filter hmember)
      rw [hid, ht.group?_id (List.mem_of_mem_filter hg)] at hfirst
      exact (Option.some.inj hfirst).symm
    subst hsame
    exact ⟨o, rfl, ho.units_eq, ho.length_eq.ge⟩

end RecordedOutputs

namespace Echo

theorem example_lt_of_mem_presentations {stage : StageDescriptor} {cursor : UInt32} {held epoch example_ : Nat}
    (hheld : 0 < held) (h : (epoch, example_) ∈ presentations stage cursor held) : example_ < held := by
  rw [presentations_eq] at h
  obtain ⟨_, _, h⟩ := List.mem_flatMap.1 h
  obtain ⟨_, _, h⟩ := List.mem_map.1 h
  cases h
  exact Nat.mod_lt _ hheld

variable {source : PayloadSource} {writers : List Writer} {s : ExampleSet} {stage : StageDescriptor}

theorem moments_eq_nil_iff {lastOnly : Bool} {spans : Array EventSpan} {epoch example_ : Nat} :
    moments lastOnly spans epoch example_ = [] ↔ (spans.getD example_ default).events = 0 := by
  unfold moments
  dsimp only
  rw [filter_last_range, List.map_eq_nil_iff, List.drop_eq_nil_iff, List.length_range]
  cases lastOnly with
  | true => simp only [if_true]; omega
  | false => simp

/-- The count of events in a word, as the spans of a compiled set have it. -/
theorem events_getD_spans {records : List ExampleRecord}
    (hrecords : records = CompiledExamples.exampleRecords 0 0 s.examples) (k : Nat) :
    ((records.map fun r => (⟨r.events.toNat, r.firstEvent.toNat⟩ : EventSpan)).toArray.getD k default).events =
      s.eventCount k % 2 ^ 32 := by
  rw [Array.getD_eq_getD_getElem?, List.getElem?_toArray, List.getElem?_map, hrecords,
    CompiledExamples.getElem?_exampleRecords, ExampleSet.eventCount, List.getD_eq_getElem?_getD, List.getElem?_map]
  cases s.examples[k]? <;> rfl

/-- A stage presents no event if no example of the set has one, or if it lasts no epoch or presents
no example. -/
theorem eventCount_of_presentations (h : stage.epochs = 0 ∨ stage.examples = 0 ∨ ∀ e ∈ s.examples, e.events = [])
    {cursor : UInt32} {held : Nat} {p : Nat × Nat} (hp : p ∈ presentations stage cursor held) :
    s.eventCount p.2 = 0 := by
  rcases h with hepochs | hexamples | hevents
  · simp [presentations_eq, hepochs] at hp
  · simp [presentations_eq, hexamples] at hp
  · rw [ExampleSet.eventCount, List.getD_eq_getElem?_getD, List.getElem?_map]
    cases hexample : s.examples[p.2]? with
    | none => rfl
    | some e => simp [hevents e (List.mem_of_getElem? hexample)]

theorem eventCount_mod (h : ∀ e ∈ s.examples, e.events.length < 2 ^ 32) (k : Nat) :
    s.eventCount k % 2 ^ 32 = s.eventCount k := by
  rw [ExampleSet.eventCount, List.getD_eq_getElem?_getD, List.getElem?_map]
  cases hexample : s.examples[k]? with
  | none => rfl
  | some e => exact Nat.mod_eq_of_lt (h e (List.mem_of_getElem? hexample))

/-- Writers that read the targets of a topology record what matches it. -/
theorem record_matches (ht : source.topology.Sound)
    (hreads : List.Forall₂ (fun recorder w => w.Reads source recorder.1 recorder.2)
      source.topology.outputSubgroups writers)
    (hrecorders : source.topology.outputSubgroups ≠ []) (hheld : s.examples ≠ [])
    (hexamples : source.examples.examples = CompiledExamples.exampleRecords 0 0 s.examples)
    (stage : StageDescriptor) (cursor : UInt32) :
    ∃ recorded, (record writers stage cursor).1 = some recorded ∧ recorded.Matches source.topology s ∧
      (recorded.ticks = [] ↔ ∀ p ∈ presentations stage (if stage.reset then 0 else cursor) s.examples.length,
        s.eventCount p.2 % 2 ^ 32 = 0) := by
  have hlength : source.examples.examples.length = s.examples.length := by
    rw [hexamples, CompiledExamples.length_exampleRecords]
  have hcompiled : source.examples.examples ≠ [] := by
    rwa [← List.length_pos_iff, hlength, List.length_pos_iff]
  obtain ⟨spans, all, hspans, hall, hrecord⟩ := record_eq hreads hrecorders hcompiled stage cursor
  have hsize : spans.size = s.examples.length := by rw [hspans, List.size_toArray, List.length_map, hlength]
  have hrecords : List.Forall₂
      (fun recorder o => SubgroupOutputs.Records o recorder.1 recorder.2 (all.map (·.row)))
      source.topology.outputSubgroups (writers.map fun w =>
        ⟨w.group, w.subgroup, w.units, (all.map (·.row)).flatMap w.tick⟩) := by
    rw [List.forall₂_map_right_iff]
    exact hreads.imp fun recorder w hw => Writer.records hw _
  refine ⟨_, congrArg Prod.fst hrecord, ⟨?_, ?_⟩, ?_⟩
  · intro record hrecord
    obtain ⟨moment, hmoment, rfl⟩ := List.mem_map.1 hrecord
    rw [hall] at hmoment
    obtain ⟨⟨epoch, example_⟩, hpresented, hmoment⟩ := List.mem_flatMap.1 hmoment
    obtain ⟨event, _, rfl⟩ := List.mem_map.1 hmoment
    have hlt := example_lt_of_mem_presentations (hsize ▸ List.length_pos_of_ne_nil hheld) hpresented
    exact (Nat.mod_le _ _).trans_lt (hsize ▸ hlt)
  · intro g hg
    have hcovers := RecordedOutputs.covers_of_records (r := ⟨all.map (·.record), _⟩) ht hrecords hg
    rwa [List.length_map, ← List.length_map (·.record)] at hcovers
  · rw [List.map_eq_nil_iff, hall, List.flatMap_eq_nil_iff, hsize]
    refine forall₂_congr fun p _ => ?_
    rw [moments_eq_nil_iff, hspans, events_getD_spans hexamples]

end Echo

end PerceptronMesh

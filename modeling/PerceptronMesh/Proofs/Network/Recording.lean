import PerceptronMesh.Proofs.Example.Obtainable
import PerceptronMesh.Proofs.Network.Attached
import PerceptronMesh.Proofs.Placement.Recording

/-!
What the stages of a network record. The service counts presentations from the placement of a
graph or the last reset on, through all calls that come between; a stage that is completed shows
the attached examples from that count on, and every output group answers with its targets.
-/

namespace PerceptronMesh

open Numeric

namespace Network

variable {n later : Network Loopback} {shown : Nat}

/-- Presentations before a stage that it counts on from: none if it begins with the first example
or has its graph placed. -/
def shownBefore (n : Network Loopback) (shown : Nat) (stage : StageDescriptor) : Nat :=
  if stage.reset || n.built.isNone then 0 else shown

/-- Presentations since the last placement or reset, after a stage. One that is not completed
presents nothing. -/
def shownAfterStage (n : Network Loopback) (shown : Nat) (call : StageCall) : Nat :=
  match call.run n with
  | .ok (.completed _) _ =>
    let stage := n.descriptor (call.request n.settings)
    n.shownBefore shown stage + stage.epochs.toNat * stage.examples.toNat
  | _ => shown

/-- Other calls present nothing either. -/
def shownAfter (n : Network Loopback) (shown : Nat) : NetworkCall → Nat
  | .stage call => n.shownAfterStage shown call
  | _ => shown

def shownAfterCalls (n : Network Loopback) (shown : Nat) : List NetworkCall → Nat
  | [] => shown
  | call :: rest => (n.afterCall call).shownAfterCalls (n.shownAfter shown call) rest

/-- The invariant of recording. The groups of a network fit its limits in words, its output
groups write, and the service has the Threshold units of the graph that is built and counts what
it presented, unless there is nothing to record. -/
structure Recordable (n : Network Loopback) (shown : Nat) : Prop where
  limits : n.limits.maxGroupUnits ≤ maxWord32
  writes : n.topology.WritesOutputs
  thresholds_eq : ∀ {graph : BuiltGraph}, n.built = some graph →
    n.service.thresholds = graph.compiled.graph.unitsWithRole .threshold
  cursor_eq : n.built ≠ none → n.topology.outputGroups ≠ [] → n.service.cursor = .ofNat shown

namespace Sound

variable (hn : n.Sound)
include hn

/-- What a call records that completes a stage. -/
theorem recorded_of_completed {call : StageCall} {report : StageReport}
    (h : call.run n = .ok (.completed report) later) :
    n.Recorded (n.descriptor (call.request n.settings)) report later ∧
      later.topology.frame = n.topology.frame := by
  obtain ⟨_, _, checked, _, hrun⟩ | ⟨checked, hpasses, hchecked, hfit, hrun⟩ := hn.checked_cases call
  case inl => cases h.symm.trans hrun
  have hcompleted := hrun.symm.trans h
  have htopology : later.topology = checked.topology := by
    rw [← (inputs_after_runChecked (call.request n.settings) checked).1, Step.after_ok hcompleted]
  have hframe : checked.topology.frame = n.topology.frame := hchecked.frame_eq
  have hdescriptor : checked.descriptor (call.request n.settings) = n.descriptor (call.request n.settings) :=
    hchecked.descriptor_eq _
  have hsound := hchecked.sound
  obtain ⟨topology, exampleSet, weightsLoaded, rfl⟩ := hchecked.changed
  obtain ⟨_, _, _, hother, _, _, _, hrecorded⟩ | ⟨_, _, hfault⟩ :=
    hsound.runChecked_cases hpasses.1 hfit (call.request n.settings)
  case inr => cases hcompleted.symm.trans hfault
  cases hcompleted.symm.trans hother
  rw [hdescriptor] at hrecorded
  obtain ⟨⟨graph, service, hbuilt, hprepared, hkeeps, hrecords⟩, hlimits, hne⟩ := hrecorded
  exact ⟨⟨⟨graph, service, hbuilt, ⟨hprepared.runs_eq, hprepared.fresh, hprepared.recording⟩, hkeeps, hrecords⟩,
    hlimits, hne⟩,
    by rw [htopology, hframe]⟩

/-- A stage that is not completed leaves the service and the graph alone. -/
theorem completed_or_kept (call : StageCall) :
    (∃ report later, call.run n = .ok (.completed report) later) ∨
      (∀ report later, call.run n ≠ .ok (.completed report) later) ∧
        ∃ topology exampleSet weightsLoaded aborted,
          Step.after call.run n = { n with topology, exampleSet, weightsLoaded, aborted } ∧
          topology.frame = n.topology.frame := by
  obtain ⟨_, reason, checked, hchecked, hrun⟩ | ⟨checked, hpasses, hchecked, hfit, hrun⟩ := hn.checked_cases call
  all_goals
    have hframe := hchecked.frame_eq
    have hsound := hchecked.sound
    obtain ⟨topology, exampleSet, weightsLoaded, rfl⟩ := hchecked.changed
  · refine .inr ⟨?_, topology, exampleSet, weightsLoaded, true, Step.after_ok hrun, hframe⟩
    intro report later hcompleted
    cases hcompleted.symm.trans hrun
  · obtain ⟨_, report, later, hcompleted, _⟩ | ⟨_, name, hfault⟩ :=
      hsound.runChecked_cases hpasses.1 hfit (call.request n.settings)
    · exact .inl ⟨report, later, hrun.trans hcompleted⟩
    · have herror := hrun.trans hfault
      refine .inr ⟨?_, topology, exampleSet, weightsLoaded, false, Step.after_error herror, hframe⟩
      intro report later hcompleted
      cases hcompleted.symm.trans herror

end Sound

theorem shownAfterStage_of_completed {call : StageCall} {report : StageReport}
    (h : call.run n = .ok (.completed report) later) :
    n.shownAfterStage shown call = n.shownBefore shown (n.descriptor (call.request n.settings)) +
      (n.descriptor (call.request n.settings)).epochs.toNat *
        (n.descriptor (call.request n.settings)).examples.toNat := by
  unfold shownAfterStage
  rw [h]

theorem shownAfterStage_of_not_completed {call : StageCall}
    (h : ∀ report later, call.run n ≠ .ok (.completed report) later) : n.shownAfterStage shown call = shown := by
  unfold shownAfterStage
  split
  · rename_i report later hrun
    exact absurd hrun (h report later)
  · rfl

/-- The units of a rebuilt network read what it was rebuilt from. -/
theorem Rebuilt.exists_writers {stage : StageDescriptor} (h : n.Rebuilt stage) (hn : n.Sound)
    (hlimits : n.limits.maxGroupUnits ≤ maxWord32) (hwrites : n.topology.WritesOutputs) {graph : BuiltGraph}
    (hbuilt : n.built = some graph)
    (hthresholds : n.service.thresholds = graph.compiled.graph.unitsWithRole .threshold) :
    ∃ source writers, source.topology = n.topology ∧ source.recording = n.recording ∧
      n.exampleSet.bind (·.compiled) = some source.examples ∧ n.service.writers = .ok writers ∧
      List.Forall₂ (fun recorder w => Echo.Writer.Reads w source recorder.1 recorder.2)
        n.topology.outputSubgroups writers := by
  obtain ⟨other, source, hother, hcompile, hsource, _, _, hloaded⟩ := h
  cases hbuilt.symm.trans hother
  cases hexamples : n.exampleSet.bind (·.compiled) with
  | none =>
    rw [payloadSource, hexamples] at hsource
    cases hsource
  | some examples =>
    cases (payloadSource_eq hexamples graph.compiled graph.routing).symm.trans hsource
    obtain ⟨writers, hwriters, hreads⟩ := Loopback.exists_writers_of_build
      (s := n.source graph.compiled graph.routing examples) hn.topology hn.filled hcompile hwrites hlimits
      hthresholds hloaded
    exact ⟨_, writers, rfl, rfl, rfl, hwriters, hreads⟩

namespace Recordable

/-- Without a graph nothing is counted. -/
theorem of_no_graph {count : Nat} (hn : n.Recordable shown) (hlimits : later.limits = n.limits)
    (hwrites : later.topology.WritesOutputs) (hbuilt : later.built = none) : later.Recordable count := by
  refine ⟨hlimits ▸ hn.limits, hwrites, ?_, fun h => absurd hbuilt h⟩
  intro graph hgraph
  rw [hbuilt] at hgraph
  cases hgraph

/-- Nor does the count change as long as the service and the graph do not. -/
theorem of_kept (hn : n.Recordable shown) (hlimits : later.limits = n.limits)
    (hframe : later.topology.frame = n.topology.frame)
    (hbuilt : later.built.map (·.compiled) = n.built.map (·.compiled))
    (hthresholds : later.service.thresholds = n.service.thresholds)
    (hcursor : later.service.cursor = n.service.cursor) : later.Recordable shown := by
  refine ⟨hlimits ▸ hn.limits, hn.writes.of_frame hframe.symm, ?_, ?_⟩
  · intro graph hgraph
    rw [hgraph, Option.map_some, eq_comm, Option.map_eq_some_iff] at hbuilt
    obtain ⟨old, hold, hcompiled⟩ := hbuilt
    rw [hthresholds, hn.thresholds_eq hold, hcompiled]
  · intro hgraph houtputs
    rw [hcursor]
    refine hn.cursor_eq ?_ ?_
    · rintro hnone
      rw [hnone, Option.map_none, Option.map_eq_none_iff] at hbuilt
      exact hgraph hbuilt
    · rwa [ne_eq, ← Topology.outputGroups_eq_nil_of_frame hframe]

theorem markCoresStale (hn : n.Recordable shown) : n.markCoresStale.Recordable shown := by
  unfold Network.markCoresStale
  split
  · exact hn
  · exact hn.of_kept rfl rfl (by rw [Option.map_map]; rfl) rfl rfl

/-- A stage leaves the Threshold units of the graph that it ran on. -/
theorem thresholds_of_recorded (hn : n.Recordable shown) {stage : StageDescriptor} {report : StageReport}
    (h : n.Recorded stage report later) : ∃ graph, later.built = some graph ∧
      later.service.thresholds = graph.compiled.graph.unitsWithRole .threshold := by
  obtain ⟨graph, service, hbuilt, hprepared, hkeeps, _⟩ := h.ready
  refine ⟨graph, hbuilt, hkeeps.thresholds_eq.trans ?_⟩
  obtain ⟨_, hplaced, _⟩ | ⟨old, hold, hsame, hkept, _⟩ := hprepared.recording
  · exact hplaced
  · rw [hkept, hn.thresholds_eq hold, hsame]

/-- What a completed stage recorded: what writers record that read the targets of the network. If
there are any, the cursor is where the stages before left it. -/
theorem exists_writers (hn : n.Recordable shown) (hsound : n.Sound) {call : StageCall} {report : StageReport}
    (h : call.run n = .ok (.completed report) later) {stage : StageDescriptor}
    (hstage : stage = n.descriptor (call.request n.settings)) :
    ∃ source writers cursor, source.topology = later.topology ∧ source.recording = later.recording ∧
      later.exampleSet.bind (·.compiled) = some source.examples ∧ source.examples.examples ≠ [] ∧
      List.Forall₂ (fun recorder w => Echo.Writer.Reads w source recorder.1 recorder.2)
        later.topology.outputSubgroups writers ∧
      Echo.record writers stage cursor = (report.outputs, later.service.cursor) ∧
      (n.topology.outputGroups ≠ [] → (if stage.reset then 0 else cursor) = .ofNat (n.shownBefore shown stage)) := by
  obtain ⟨hrecorded, hframe⟩ := hsound.recorded_of_completed h
  rw [← hstage] at hrecorded
  have hlater : later.Sound ∧ later.Rebuilt stage := by
    obtain ⟨_, _, _, hrun, _⟩ | ⟨_, _, _, _, hrun, hlater, hrebuilt, _⟩ | ⟨_, _, _, _, hrun, _⟩ :=
      hsound.stage_cases call
    · cases h.symm.trans hrun
    · cases h.symm.trans hrun
      exact ⟨hlater, hstage ▸ hrebuilt⟩
    · cases h.symm.trans hrun
  obtain ⟨_, hgraph, hthresholds⟩ := hn.thresholds_of_recorded hrecorded
  obtain ⟨source, writers, htopology, hrecording, hexamples, hwriters, hreads⟩ := hlater.2.exists_writers hlater.1
    (hrecorded.limits_eq ▸ hn.limits) (hn.writes.of_frame hframe.symm) hgraph hthresholds
  obtain ⟨graph, service, hbuilt, hprepared, hkeeps, found, hfound, hrecord⟩ := hrecorded.ready
  rw [hkeeps.writers_eq] at hwriters
  cases hfound.symm.trans hwriters
  refine ⟨source, writers, service.cursor, htopology, hrecording, hexamples, hrecorded.examples_ne hexamples, hreads,
    hrecord, fun houtputs => ?_⟩
  unfold shownBefore
  cases hreset : stage.reset with
  | true => rfl
  | false =>
    obtain ⟨hnone, _, hcursor⟩ | ⟨old, hold, _, _, hcursor⟩ := hprepared.recording
    · rw [hnone, hcursor]
      rfl
    · have hcounted : n.service.cursor = .ofNat shown := hn.cursor_eq (by simp [hold]) houtputs
      rw [hold, hcursor, hcounted]
      rfl

/-- The cursor of a network that records is where the stages before left it. -/
theorem exists_record (hn : n.Recordable shown) (hsound : n.Sound) {call : StageCall} {report : StageReport}
    (h : call.run n = .ok (.completed report) later) {stage : StageDescriptor}
    (hstage : stage = n.descriptor (call.request n.settings)) (houtputs : n.topology.outputGroups ≠ []) :
    ∃ source writers cursor, source.topology = later.topology ∧ source.recording = later.recording ∧
      later.exampleSet.bind (·.compiled) = some source.examples ∧ source.examples.examples ≠ [] ∧
      List.Forall₂ (fun recorder w => Echo.Writer.Reads w source recorder.1 recorder.2)
        later.topology.outputSubgroups writers ∧
      Echo.record writers stage cursor = (report.outputs, later.service.cursor) ∧
      (if stage.reset then 0 else cursor) = .ofNat (n.shownBefore shown stage) := by
  obtain ⟨source, writers, cursor, htopology, hrecording, hexamples, hheld, hreads, hrecord, hstart⟩ :=
    hn.exists_writers hsound h hstage
  exact ⟨source, writers, cursor, htopology, hrecording, hexamples, hheld, hreads, hrecord, hstart houtputs⟩

theorem afterStage (hn : n.Recordable shown) (hsound : n.Sound) (call : StageCall) :
    (Step.after call.run n).Recordable (n.shownAfterStage shown call) := by
  obtain ⟨report, later, h⟩ | ⟨hnot, topology, exampleSet, weightsLoaded, aborted, hafter, hframe⟩ :=
    hsound.completed_or_kept call
  · obtain ⟨hrecorded, hframe⟩ := hsound.recorded_of_completed h
    obtain ⟨graph, hgraph, hthresholds⟩ := hn.thresholds_of_recorded hrecorded
    rw [Step.after_ok h, shownAfterStage_of_completed h]
    refine ⟨hrecorded.limits_eq ▸ hn.limits, hn.writes.of_frame hframe.symm, ?_, ?_⟩
    · intro other hother
      cases hgraph.symm.trans hother
      exact hthresholds
    · intro _ houtputs
      have hbefore : n.topology.outputGroups ≠ [] := by
        rwa [ne_eq, ← Topology.outputGroups_eq_nil_of_frame hframe]
      obtain ⟨source, writers, cursor, _, _, _, hheld, hreads, hrecord, hstart⟩ :=
        hn.exists_record hsound h rfl hbefore
      have ht : later.topology.Sound := hsound.topology.of_frame hframe.symm
      have hcursor := Echo.cursor_record hreads (ht.outputSubgroups_ne_nil houtputs) hheld hstart
      rw [hrecord] at hcursor
      exact hcursor
  · rw [hafter, shownAfterStage_of_not_completed hnot]
    exact hn.of_kept rfl hframe rfl rfl rfl

/-- The count is kept through every call. -/
theorem afterCall (hn : n.Recordable shown) (hsound : n.Sound) (call : NetworkCall) :
    (n.afterCall call).Recordable (n.shownAfter shown call) := by
  cases call with
  | addGroup units roles inputFunctions outputFunctions label =>
    refine orKeep_of (P := fun later => later.Recordable shown) hn fun found h => ?_
    obtain ⟨grown, hadd, hlater⟩ := addGroup_eq_ok h
    rw [hlater]
    exact hn.of_no_graph rfl (hn.writes.addGroup hadd) rfl
  | addLink source destination label =>
    refine orKeep_of (P := fun later => later.Recordable shown) hn fun found h => ?_
    obtain ⟨linked, hlink, hlater⟩ := addLink_eq_ok h
    rw [hlater]
    exact hn.of_no_graph rfl (hn.writes.addLink hlink) rfl
  | setGroupParams id params =>
    refine orKeep_of (P := fun later => later.Recordable shown) hn fun later h => ?_
    obtain rfl | ⟨_, rfl⟩ := setGroupParams_eq_ok h
    · exact hn
    · apply markCoresStale
      exact hn.of_kept rfl (n.topology.frame_setParams id params) rfl rfl rfl
  | setParams params =>
    have hset : { n with settings := n.settings.apply params }.Recordable shown := hn.of_kept rfl rfl rfl rfl rfl
    show (n.setParams params).Recordable shown
    unfold Network.setParams
    dsimp only
    split
    · exact hset.markCoresStale
    · exact hset
  | setWeightsFile path =>
    refine hn.of_kept rfl rfl ?_ rfl rfl
    show (if n.ended then n.built else n.built.map fun graph => { graph with weightsStale := true }).map _ = _
    split
    · rfl
    · rw [Option.map_map]
      rfl
  | setExamplesFile files path =>
    show (Step.after (Network.setExamplesFile files path) n).Recordable shown
    obtain ⟨e, _, h⟩ | ⟨count, read, _, h⟩ := setExamplesFile_cases n files path
    · rw [Step.after_error h]
      exact hn.of_kept rfl rfl rfl rfl rfl
    · rw [Step.after_ok h]
      exact hn.of_no_graph rfl hn.writes rfl
  | attachExampleSet s => exact hn.of_no_graph rfl hn.writes rfl
  | setRecording recording =>
    show (n.setRecording recording).Recordable shown
    unfold Network.setRecording
    split
    · exact hn
    · exact hn.of_no_graph rfl hn.writes rfl
  | stage call => exact hn.afterStage hsound call
  | finish =>
    show (Step.after Network.finish n).Recordable shown
    obtain ⟨_, h⟩ | ⟨_, h⟩ := finish_cases n
    · rw [Step.after_ok h]
      exact hn
    · rw [Step.after_ok h]
      exact hn.of_kept rfl rfl rfl rfl rfl
  | pushTestResults results => exact hn.of_kept rfl rfl rfl rfl rfl

theorem afterCalls (hn : n.Recordable shown) (hsound : n.Sound) (calls : List NetworkCall) :
    (n.afterCalls calls).Recordable (n.shownAfterCalls shown calls) := by
  induction calls generalizing n shown with
  | nil => exact hn
  | cons call rest ih => exact ih (hn.afterCall hsound call) (hsound.afterCall call)

theorem of_make {settings : Settings} {configuration : Configuration} {service : Loopback}
    (hlimits : configuration.limits.maxGroupUnits ≤ maxWord32)
    (h : Network.make settings configuration service = .ok n) : n.Recordable 0 := by
  obtain ⟨_, t, htopology, rfl⟩ := make_eq_ok h
  refine ⟨hlimits, Topology.writesOutputs_of_make htopology, ?_, fun h => absurd rfl h⟩
  intro graph hgraph
  cases hgraph

end Recordable

/-- Describing its own examples is a matter of the set alone. -/
theorem lasting_faithful : Lasting fun _ s => s.Faithful where
  of_compile _ hnone h := ExampleSet.Faithful.compile (ExampleSet.faithful_of_uncompiled hnone) h
  of_same h _ := h

/-- A stage that is completed records the targets of the output groups: a record for each event of
the examples in their cyclic order, on from the presentations since the last placement or reset,
and for each subgroup a block that holds at every record the targets of its units in the row of the
event. Counts of units, events and presentations are words everywhere, so they have to fit one. -/
theorem completed_recording {settings : Settings} {configuration : Configuration} {keySpace : Nat}
    (hlimits : configuration.limits.maxGroupUnits ≤ maxWord32)
    (hmake : Network.make settings configuration ({ keySpace } : Loopback) = .ok n) {calls : List NetworkCall}
    (hsets : ∀ s, .attachExampleSet s ∈ calls → s.Obtainable) {call : StageCall} {report : StageReport}
    (h : call.run (n.afterCalls calls) = .ok (.completed report) later)
    (houtputs : (n.afterCalls calls).topology.outputGroups ≠ []) {stage : StageDescriptor}
    (hstage : stage = (n.afterCalls calls).descriptor (call.request (n.afterCalls calls).settings)) {start : Nat}
    (hstart : start = (n.afterCalls calls).shownBefore (n.shownAfterCalls 0 calls) stage)
    (hcyclic : start + stage.epochs.toNat * stage.examples.toNat < 2 ^ 32) :
    ∃ s, (n.afterCalls calls).exampleSet = some s ∧ (s.events.length ≤ maxWord32 →
      ∃ recorded, report.outputs = some recorded ∧
        recorded.Shows later.topology s (s.showings stage start later.recording.lastOnly)) := by
  have hreachable : (n.afterCalls calls).Reachable := (Reachable.make hmake).afterCalls calls
  have hrecordable : (n.afterCalls calls).Recordable (n.shownAfterCalls 0 calls) :=
    (Recordable.of_make hlimits hmake).afterCalls (Reachable.make hmake).sound calls
  have hattached : Attached (fun _ s => s.Faithful) (n.afterCalls calls) :=
    (Attached.of_make hmake).afterCalls lasting_faithful fun s hs _ _ => (hsets s hs).faithful
  obtain ⟨source, writers, cursor, htopology, hrecording, hexamples, hne, hreads, hrecord, hcursor⟩ :=
    hrecordable.exists_record hreachable.sound h hstage houtputs
  obtain ⟨held, hheld, hcompiled⟩ := Option.bind_eq_some_iff.1 hexamples
  obtain ⟨hlater, s, hs, hsame⟩ := hattached.exists_attached lasting_faithful h hheld
  have hrecords : source.examples.examples = CompiledExamples.exampleRecords 0 0 s.examples := by
    have hown : s.examples = held.examples := (congrArg ExampleSet.examples hsame :)
    rw [hown]
    exact hlater.held hheld (by simp [hcompiled]) hcompiled
  have hnonempty : s.examples ≠ [] := by
    intro hempty
    rw [hempty] at hrecords
    exact hne hrecords
  have hframe := (hreachable.sound.recorded_of_completed h).2
  have hrecorders : later.topology.outputSubgroups ≠ [] := by
    apply hlater.topology.outputSubgroups_ne_nil
    rwa [ne_eq, Topology.outputGroups_eq_nil_of_frame hframe]
  refine ⟨s, hs, fun hevents => ?_⟩
  rw [← hstart] at hcursor
  rw [← htopology] at hreads hrecorders
  obtain ⟨recorded, hrecorded, hshows⟩ :=
    Echo.record_shows hreads hrecorders hnonempty hrecords hevents hcursor hcyclic
  rw [hrecord] at hrecorded
  rw [htopology, hrecording] at hshows
  exact ⟨recorded, hrecorded, hshows⟩

/-- A test of three presentations, of one example, of the other with both its events and of the first
again, records the targets in that order. -/
theorem completed_recording_two_examples : ∃ n, Network.make {} {} ({ keySpace := 65536 } : Loopback) = .ok n ∧
    ({} : Configuration).limits.maxGroupUnits ≤ maxWord32 ∧
    (∀ s, .attachExampleSet s ∈ outputCalls twoExamples → s.Obtainable) ∧
    (n.afterCalls (outputCalls twoExamples)).topology.outputGroups ≠ [] ∧ twoExamples.events.length ≤ maxWord32 ∧
    ∃ report later recorded o,
      (StageCall.test outputFiles (some 3) true).run (n.afterCalls (outputCalls twoExamples)) =
        .ok (.completed report) later ∧
      report.outputs = some recorded ∧
      recorded.ticks = [⟨0, 0, 0, 1⟩, ⟨0, 1, 0, 1⟩, ⟨0, 1, 1, 2⟩, ⟨0, 0, 0, 1⟩] ∧ recorded.outputs = [o] ∧
      (List.range 4).map o.tick = [.ok [16384], .ok [32768], .ok [0], .ok [16384]] := by
  let call : StageCall := .test outputFiles (some 3) true
  let stage : StageDescriptor :=
    { id := 0, mode := .test, updateFunction := .dougsMomentum, reset := true, examples := 3, epochs := 1 }
  obtain ⟨n, g, hmake, hpasses, hkeys, houtputs, hset, hstage, hchecked, hgroup, hall⟩ : ∃ n g,
      Network.make {} {} ({ keySpace := 65536 } : Loopback) = .ok n ∧
      (n.afterCalls (outputCalls twoExamples)).Passes outputFiles ∧
      ¬(n.afterCalls (outputCalls twoExamples)).LacksKeys ∧
      (n.afterCalls (outputCalls twoExamples)).topology.outputGroups ≠ [] ∧
      (n.afterCalls (outputCalls twoExamples)).exampleSet = some twoExamples ∧
      stage = (n.afterCalls (outputCalls twoExamples)).descriptor
        (call.request (n.afterCalls (outputCalls twoExamples)).settings) ∧
      ((n.afterCalls (outputCalls twoExamples)).afterChecks call).topology.outputSubgroups = [(g, 0)] ∧
      (g.units = 1 ∧ g.subgroupUnits 0 = 1 ∧ g.subgroupOffset 0 = 0 ∧
        g.targets = #[some (.ofRatio false 1 2), some (.ofNat 1), some (.zero false)]) ∧
      ((n.afterCalls (outputCalls twoExamples)).afterChecks call).recording.lastOnly = false :=
    ⟨_, _, rfl, by decide +kernel, by decide +kernel, by decide +kernel, rfl, rfl, rfl, by decide +kernel, rfl⟩
  have hsets : ∀ s, .attachExampleSet s ∈ outputCalls twoExamples → s.Obtainable := by
    intro s hs
    rw [eq_of_mem_outputCalls hs]
    exact .addExample _ (.addExample _ (.make "two"))
  have hsound := ((Reachable.make hmake).afterCalls (outputCalls twoExamples)).sound
  obtain ⟨report, later, h⟩ := hsound.exists_completed call hpasses hkeys
  have hlimits : ({} : Configuration).limits.maxGroupUnits ≤ maxWord32 := by decide
  have hevents : twoExamples.events.length ≤ maxWord32 := by decide
  have hstart : 0 = (n.afterCalls (outputCalls twoExamples)).shownBefore
      (n.shownAfterCalls 0 (outputCalls twoExamples)) stage := rfl
  obtain ⟨s, hs, hshown⟩ := completed_recording hlimits hmake hsets h houtputs hstage hstart (by decide)
  cases hset.symm.trans hs
  obtain ⟨recorded, hrecorded, hshows⟩ := hshown hevents
  obtain ⟨_, htopology, _, hrecording⟩ := inputs_of_completed h
  rw [← htopology] at hchecked
  rw [← hrecording] at hall
  rw [hall] at hshows
  have hblocks := hshows.outputs
  rw [hchecked, List.forall₂_cons_left_iff] at hblocks
  obtain ⟨o, _, ho, hnone, hone⟩ := hblocks
  rw [List.forall₂_nil_left_iff.1 hnone] at hone
  refine ⟨n, hmake, hlimits, hsets, houtputs, hevents, report, later, recorded, o, h, hrecorded, ?_, hone, ?_⟩
  · rw [hshows.ticks_eq]
    decide
  · obtain ⟨hunits, hsubgroup, hoffset, htargets⟩ := hgroup
    have hrows : (twoExamples.showings stage 0 false).map twoExamples.row = [0, 1, 2, 0] := by decide
    have htick (k : Nat) {row : Nat} (hrow : [0, 1, 2, 0][k]? = some row) :
        o.tick k = .ok [recordedTarget (g.targets.getD row none)] := by
      rw [ho.tick_eq (hrows ▸ hrow), ho.units_eq]
      simp [hunits, hsubgroup, hoffset]
    show [o.tick 0, o.tick 1, o.tick 2, o.tick 3] = _
    rw [htick 0 rfl, htick 1 rfl, htick 2 rfl, htick 3 rfl, htargets]
    decide +kernel

end Network

end PerceptronMesh

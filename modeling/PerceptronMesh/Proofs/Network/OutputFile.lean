import PerceptronMesh.Proofs.Network.LastStage
import PerceptronMesh.Proofs.Placement.Matches

/-!
When recorded outputs are written. What a network keeps of a recording agrees with its topology and
its examples through all calls, so that writing it does not fail. It is written even if it has no
tick.
-/

namespace PerceptronMesh

open Numeric Text

namespace Network

variable {n later : Network Loopback} {shown : Nat}

/-- The invariant of writing outputs. The output chain follows the groups, and the recording that is
kept matches the topology and the examples. -/
structure Legible (n : Network Loopback) : Prop where
  chains : n.topology.ChainsOutputs
  agrees : ∀ {recorded : RecordedOutputs}, n.lastOutputs = some recorded →
    ∃ s, n.exampleSet = some s ∧ recorded.Matches n.topology s

/-- What a completed stage recorded, which is nothing at all if there is no output group. -/
theorem Recordable.recording_of_completed (hn : n.Recordable shown) (hsound : n.Sound)
    (hattached : Attached (fun _ s => s.Faithful) n) {call : StageCall} {report : StageReport}
    (h : call.run n = .ok (.completed report) later) {stage : StageDescriptor}
    (hstage : stage = n.descriptor (call.request n.settings)) :
    (report.outputs = none ↔ n.topology.outputGroups = []) ∧
      ∀ {recorded : RecordedOutputs}, report.outputs = some recorded →
        ∃ s held, n.exampleSet = some s ∧ later.exampleSet = some held ∧ recorded.Matches later.topology held ∧
          (recorded.ticks = [] ↔
            ∀ p ∈ Echo.presentations stage (.ofNat (n.shownBefore shown stage)) s.examples.length,
              s.eventCount p.2 % 2 ^ 32 = 0) := by
  obtain ⟨source, writers, cursor, htopology, _, hexamples, hne, hreads, hrecord, hstart⟩ :=
    hn.exists_writers hsound h hstage
  obtain ⟨held, hheld, hcompiled⟩ := Option.bind_eq_some_iff.1 hexamples
  obtain ⟨hlater, s, hs, hsame⟩ := hattached.exists_attached lasting_faithful h hheld
  have hown : s.examples = held.examples := (congrArg ExampleSet.examples hsame :)
  have hrecords : source.examples.examples = CompiledExamples.exampleRecords 0 0 s.examples :=
    hown ▸ hlater.held hheld (by simp [hcompiled]) hcompiled
  have houtputs := congrArg Prod.fst hrecord
  have ht := hlater.topology
  have hgroups_iff := Topology.outputGroups_eq_nil_of_frame (hsound.recorded_of_completed h).2
  rw [← hgroups_iff]
  by_cases hgroups : later.topology.outputGroups = []
  · rw [Topology.outputSubgroups, hgroups] at hreads
    cases hreads
    refine ⟨iff_of_true houtputs.symm hgroups, ?_⟩
    intro recorded hrecorded
    cases hrecorded.symm.trans houtputs.symm
  · have hrecorders := ht.outputSubgroups_ne_nil hgroups
    have hnonempty : s.examples ≠ [] := by
      intro hempty
      rw [hempty] at hrecords
      exact hne hrecords
    rw [← htopology] at hreads hrecorders ht
    obtain ⟨recorded, hrecorded, hmatches, hempty⟩ :=
      Echo.record_matches ht hreads hrecorders hnonempty hrecords stage cursor
    rw [hstart fun hnone => hgroups (hgroups_iff.2 hnone)] at hempty
    have hreport : report.outputs = some recorded := houtputs.symm.trans hrecorded
    refine ⟨iff_of_false (by simp [hreport]) hgroups, ?_⟩
    intro other hother
    cases hreport.symm.trans hother
    exact ⟨s, held, hs, hheld, htopology ▸ hmatches.of_frame rfl hown.symm, hempty⟩

namespace Legible

theorem of_keepsRecording (hn : n.Legible) (h : n.KeepsRecording later) : later.Legible := by
  refine ⟨hn.chains.of_frame h.frame_eq.symm, ?_⟩
  intro recorded hrecorded
  obtain ⟨s, hs, hmatches⟩ := hn.agrees (h.lastOutputs_eq.symm.trans hrecorded)
  have hexamples := h.examples_eq (by simp [hs])
  rw [hs, Option.map_some, Option.map_eq_some_iff] at hexamples
  obtain ⟨held, hheld, hsame⟩ := hexamples
  exact ⟨held, hheld, hmatches.of_frame h.frame_eq.symm hsame⟩

theorem of_no_graph (hchains : n.topology.ChainsOutputs) (hbuilt : n.built = none) : n.Legible := by
  refine ⟨hchains, ?_⟩
  intro recorded hrecorded
  cases (lastOutputs_of_no_graph hbuilt).symm.trans hrecorded

/-- Every call leaves a recording that can be written, or none. -/
theorem afterCall (hn : n.Legible) (hsound : n.Sound) (hrecordable : n.Recordable shown)
    (hattached : Attached (fun _ s => s.Faithful) n) (call : NetworkCall) : (n.afterCall call).Legible := by
  by_cases hstage : ∃ stage, call = .stage stage
  · obtain ⟨call, rfl⟩ := hstage
    show (Step.after call.run n).Legible
    obtain ⟨report, later, h, hlast, _⟩ | ⟨_, _, h, _, hkeeps⟩ | ⟨_, _, h, _, hkeeps⟩ := hsound.recording_cases call
    · rw [Step.after_ok h]
      refine ⟨hn.chains.of_frame (hsound.recorded_of_completed h).2.symm, ?_⟩
      intro recorded hrecorded
      have houtputs : later.lastOutputs = report.outputs := (congrArg LastStage.recorded hlast :)
      obtain ⟨_, held, _, hheld, hmatches, _⟩ :=
        (hrecordable.recording_of_completed hsound hattached h rfl).2 (houtputs.symm.trans hrecorded)
      exact ⟨held, hheld, hmatches⟩
    · rw [Step.after_ok h]
      exact hn.of_keepsRecording hkeeps
    · rw [Step.after_error h]
      exact hn.of_keepsRecording hkeeps
  · obtain ⟨hbuilt, hchains⟩ | hkeeps := n.dropsOrKeeps_afterCall fun stage hcall => hstage ⟨stage, hcall⟩
    · exact of_no_graph (hchains hn.chains) hbuilt
    · exact hn.of_keepsRecording hkeeps

theorem afterCalls (hn : n.Legible) (hsound : n.Sound) (hrecordable : n.Recordable shown)
    (hattached : Attached (fun _ s => s.Faithful) n) {calls : List NetworkCall}
    (hsets : ∀ s, .attachExampleSet s ∈ calls → s.Obtainable) : (n.afterCalls calls).Legible := by
  induction calls generalizing n shown with
  | nil => exact hn
  | cons call rest ih =>
    have hnext : Attached (fun _ s => s.Faithful) (n.afterCall call) :=
      hattached.afterCall lasting_faithful fun s hcall _ _ => (hsets s (hcall ▸ List.mem_cons_self)).faithful
    exact ih (hn.afterCall hsound hrecordable hattached call) (hsound.afterCall call)
      (hrecordable.afterCall hsound call) hnext fun s hs => hsets s (List.mem_cons_of_mem _ hs)

theorem of_make {settings : Settings} {configuration : Configuration} {service : Loopback}
    (h : Network.make settings configuration service = .ok n) : n.Legible := by
  obtain ⟨_, t, htopology, rfl⟩ := make_eq_ok h
  exact of_no_graph (Topology.Reachable.make htopology).chainsOutputs rfl

end Legible

section Writing

variable {files : FileTree} {path : Path}

theorem writeOutputs_of_nothing (h : n.recording.outputs = false ∨ n.aborted = true ∨ n.lastOutputs = none) :
    n.writeOutputs path files = .ok false files := by
  have hnone : n.outputsToWrite = none := by
    unfold outputsToWrite
    obtain hoff | haborted | hlast := h
    · simp [hoff]
    · simp [haborted]
    · rw [hlast, ite_self]
  unfold writeOutputs
  rw [hnone]
  rfl

/-- The lines of a recording that is kept are written to the file. -/
theorem Legible.writeOutputs_eq (hn : n.Legible) (ht : n.topology.Sound) (hrecording : n.recording.outputs = true)
    (haborted : n.aborted = false) {recorded : RecordedOutputs} (hlast : n.lastOutputs = some recorded)
    {location : Location} (hpath : files.writable path = .ok location) :
    ∃ s lines, n.exampleSet = some s ∧
      lines = OutputText.layout n.topology.outputGroups (OutputText.ticksOnFirstExample s n.settings) recorded.ticks
        recorded.outputsOf (fun record g =>
          g.targetsAt (s.firstRow record.example_.toNat + record.event.toNat)) ∧
      n.writeOutputs path files =
        .ok true (files.put location (String.join (lines.map (· ++ "\n"))).toUTF8) := by
  obtain ⟨s, hs, hheld, hcovers⟩ := hn.agrees hlast
  have hchained := ht.chained_eq hn.chains
  have htext : outputText n.topology s n.settings recorded = _ :=
    OutputText.outputText_of_covers ht hheld (by rwa [hchained])
  have hkept : n.outputsToWrite = some recorded := by simp [outputsToWrite, hrecording, haborted, hlast]
  rw [hchained] at htext
  refine ⟨s, _, hs, rfl, ?_⟩
  unfold writeOutputs
  have hlocation : (files.writable path).mapError Error.file = .ok location := by
    rw [hpath]
    rfl
  rw [hkept]
  dsimp only
  rw [hs]
  dsimp only
  rw [Step.bind_ok (x := get) rfl, Step.bind_ok (Step.ofResult_ok hlocation), htext]
  rfl

end Writing

/-- A network writes its outputs exactly if they are recorded, the last call of a stage was not
aborted, and a stage was completed on the graph it has while there was an output group. It writes
all ticks that the stage recorded, and does not fail. There are none if the stage lasted no epoch,
presented no example or met no event; the file is then written all the same, and is empty. -/
theorem writeOutputs_spec {settings : Settings} {configuration : Configuration} {keySpace : Nat}
    (hlimits : configuration.limits.maxGroupUnits ≤ maxWord32) {fresh : Network Loopback}
    (hmake : Network.make settings configuration ({ keySpace } : Loopback) = .ok fresh) {calls : List NetworkCall}
    (hsets : ∀ s, .attachExampleSet s ∈ calls → s.Obtainable) (hcalls : n = fresh.afterCalls calls)
    {last : LastStage} (hlast : last = fresh.lastStageAfterCalls {} calls) {files : FileTree} {path : Path}
    {location : Location} (hpath : files.writable path = .ok location) :
    (n.recording.outputs = false ∨ last.aborted = true ∨ last.recorded = none →
        n.writeOutputs path files = .ok false files) ∧
      (∀ recorded, n.recording.outputs = true → last.aborted = false → last.recorded = some recorded →
        ∃ s lines, n.exampleSet = some s ∧
          lines = OutputText.layout n.topology.outputGroups (OutputText.ticksOnFirstExample s n.settings)
            recorded.ticks recorded.outputsOf (fun record g =>
              g.targetsAt (s.firstRow record.example_.toNat + record.event.toNat)) ∧
          (lines = [] ↔ recorded.ticks = []) ∧
          n.writeOutputs path files =
            .ok true (files.put location (String.join (lines.map (· ++ "\n"))).toUTF8)) ∧
      ∀ (call : StageCall) report later, call.run n = .ok (.completed report) later →
        (report.outputs = none ↔ n.topology.outputGroups = []) ∧
          ∀ recorded s stage start, report.outputs = some recorded → n.exampleSet = some s →
            stage = n.descriptor (call.request n.settings) →
            start = n.shownBefore (fresh.shownAfterCalls 0 calls) stage →
            (stage.epochs = 0 ∨ stage.examples = 0 ∨ (∀ e ∈ s.examples, e.events = []) → recorded.ticks = []) ∧
              ((∀ e ∈ s.examples, e.events.length < 2 ^ 32) → (recorded.ticks = [] ↔
                ∀ p ∈ Echo.presentations stage (.ofNat start) s.examples.length, s.eventCount p.2 = 0)) := by
  subst hcalls
  have hsound := (Reachable.make hmake).sound
  have hlater : (fresh.afterCalls calls).Sound := ((Reachable.make hmake).afterCalls calls).sound
  have hrecordable := Recordable.of_make hlimits hmake
  have hlegible := (Legible.of_make hmake).afterCalls hsound hrecordable (Attached.of_make hmake) hsets
  have hmarks : (fresh.afterCalls calls).lastStage = last := hlast ▸ lastStage_of_make hmake calls
  subst hmarks
  refine ⟨writeOutputs_of_nothing, ?_, ?_⟩
  · intro recorded hrecording haborted hkept
    obtain ⟨s, lines, hs, hlines, hwritten⟩ :=
      hlegible.writeOutputs_eq hlater.topology hrecording haborted hkept hpath
    exact ⟨s, lines, hs, hlines, by rw [hlines, OutputText.layout_eq_nil_iff], hwritten⟩
  · intro call report later h
    have hattached : Attached (fun _ s => s.Faithful) (fresh.afterCalls calls) :=
      (Attached.of_make hmake).afterCalls lasting_faithful fun s hs _ _ => (hsets s hs).faithful
    obtain ⟨hnone, hrecorded⟩ := (hrecordable.afterCalls hsound calls).recording_of_completed hlater hattached h rfl
    refine ⟨hnone, ?_⟩
    rintro recorded s _ _ houtputs hs rfl rfl
    obtain ⟨_, _, hheld, _, _, hticks⟩ := hrecorded houtputs
    cases hs.symm.trans hheld
    refine ⟨fun hempty => hticks.2 fun p hp => ?_, fun hwords => ?_⟩
    · rw [Echo.eventCount_of_presentations hempty hp, Nat.zero_mod]
    · simpa only [Echo.eventCount_mod hwords] using hticks

/-- A test of so many examples, of the one event that a network with an output group holds. -/
def testCalls (examples : Option UInt32) : List NetworkCall :=
  outputCalls oneEvent ++ [.stage (.test outputFiles examples true)]

theorem eq_of_mem_testCalls {examples : Option UInt32} {s : ExampleSet}
    (h : .attachExampleSet s ∈ testCalls examples) : s = oneEvent := by
  simpa [testCalls, outputCalls] using h

theorem obtainable_oneEvent : oneEvent.Obtainable := .addExample { events := [{}] } (.make "one")

/-- The test is completed, whatever its number of examples. -/
theorem exists_test (examples : Option UInt32) : ∃ fresh n later report,
    Network.make {} {} ({ keySpace := 65536 } : Loopback) = .ok fresh ∧
    n = fresh.afterCalls (outputCalls oneEvent) ∧ later = fresh.afterCalls (testCalls examples) ∧
    (StageCall.test outputFiles examples true).run n = .ok (.completed report) later ∧
    fresh.lastStageAfterCalls {} (testCalls examples) = ⟨false, report.outputs⟩ ∧
    later.recording.outputs = true ∧ n.topology.outputGroups ≠ [] ∧ n.exampleSet = some oneEvent ∧
    n.descriptor ((StageCall.test outputFiles examples true).request n.settings) =
      ⟨0, .test, .dougsMomentum, true, examples.getD 1, 1⟩ := by
  let call : StageCall := .test outputFiles examples true
  obtain ⟨fresh, hmake, hpasses, hkeys, houtputs, hset, hdescriptor, hrecording⟩ : ∃ fresh,
      Network.make {} {} ({ keySpace := 65536 } : Loopback) = .ok fresh ∧
      (fresh.afterCalls (outputCalls oneEvent)).Passes outputFiles ∧
      ¬(fresh.afterCalls (outputCalls oneEvent)).LacksKeys ∧
      (fresh.afterCalls (outputCalls oneEvent)).topology.outputGroups ≠ [] ∧
      (fresh.afterCalls (outputCalls oneEvent)).exampleSet = some oneEvent ∧
      (fresh.afterCalls (outputCalls oneEvent)).descriptor
        (call.request (fresh.afterCalls (outputCalls oneEvent)).settings) =
          ⟨0, .test, .dougsMomentum, true, examples.getD 1, 1⟩ ∧
      (fresh.afterCalls (outputCalls oneEvent)).recording.outputs = true :=
    ⟨_, rfl, by decide +kernel, by decide +kernel, by decide +kernel, rfl, rfl, rfl⟩
  have hsound := ((Reachable.make hmake).afterCalls (outputCalls oneEvent)).sound
  obtain ⟨report, later, h⟩ := hsound.exists_completed call hpasses hkeys
  have hlater : later = fresh.afterCalls (testCalls examples) := (Step.after_ok h).symm
  have hlast := lastStage_of_make hmake (testCalls examples)
  obtain ⟨_, _, hcompleted, hmarks, hsame⟩ | ⟨_, _, haborted, _⟩ | ⟨_, _, hfault, _⟩ := hsound.recording_cases call
  · cases hcompleted.symm.trans h
    refine ⟨fresh, _, later, report, hmake, rfl, hlater, h, ?_, hsame ▸ hrecording, houtputs, hset, hdescriptor⟩
    rw [← hlater, hmarks] at hlast
    exact hlast.symm
  · cases haborted.symm.trans h
  · cases hfault.symm.trans h

/-- A test of the one event is written to the file. -/
theorem writeOutputs_spec_one_event : ∃ fresh recorded lines,
    Network.make {} {} ({ keySpace := 65536 } : Loopback) = .ok fresh ∧
    ({} : Configuration).limits.maxGroupUnits ≤ maxWord32 ∧
    (∀ s, .attachExampleSet s ∈ testCalls none → s.Obtainable) ∧
    ({} : FileTree).writable ⟨"out"⟩ = .ok ["out"] ∧
    fresh.lastStageAfterCalls {} (testCalls none) = ⟨false, some recorded⟩ ∧ recorded.ticks ≠ [] ∧ lines ≠ [] ∧
    (fresh.afterCalls (testCalls none)).writeOutputs ⟨"out"⟩ {} =
      .ok true (({} : FileTree).put ["out"] (String.join (lines.map (· ++ "\n"))).toUTF8) := by
  obtain ⟨fresh, n, later, report, hmake, hn, hlater, h, hlast, hrecording, hgroups, hset, hstage⟩ := exists_test none
  have hlimits : ({} : Configuration).limits.maxGroupUnits ≤ maxWord32 := by decide
  have hpath : ({} : FileTree).writable ⟨"out"⟩ = .ok ["out"] := by decide +kernel
  have hbefore : ∀ s, .attachExampleSet s ∈ outputCalls oneEvent → s.Obtainable := fun s hs =>
    eq_of_mem_outputCalls hs ▸ obtainable_oneEvent
  have hsets : ∀ s, .attachExampleSet s ∈ testCalls none → s.Obtainable := fun s hs =>
    eq_of_mem_testCalls hs ▸ obtainable_oneEvent
  obtain ⟨_, _, hrecorded⟩ := writeOutputs_spec hlimits hmake hbefore hn rfl hpath
  obtain ⟨hnone, hticks⟩ := hrecorded _ report later h
  obtain ⟨recorded, houtputs⟩ := Option.ne_none_iff_exists'.1 fun hempty => hgroups (hnone.1 hempty)
  have hshown : recorded.ticks ≠ [] := by
    obtain ⟨_, hempty⟩ := hticks recorded oneEvent _ 0 houtputs hset hstage.symm rfl
    rw [ne_eq, hempty (by decide)]
    intro hall
    exact absurd (hall (0, 0) (by decide)) (by decide)
  rw [houtputs] at hlast
  obtain ⟨_, hwritten, _⟩ := writeOutputs_spec hlimits hmake hsets hlater hlast.symm hpath
  obtain ⟨_, lines, _, _, hlines, hfile⟩ := hwritten recorded hrecording rfl rfl
  exact ⟨fresh, recorded, lines, hmake, hlimits, hsets, hpath, hlast, hshown, fun hempty => hshown (hlines.1 hempty),
    hlater ▸ hfile⟩

/-- A test of no examples records no tick, and an empty file is written for it. -/
theorem writeOutputs_no_ticks : ∃ fresh recorded,
    Network.make {} {} ({ keySpace := 65536 } : Loopback) = .ok fresh ∧
    fresh.lastStageAfterCalls {} (testCalls (some 0)) = ⟨false, some recorded⟩ ∧ recorded.ticks = [] ∧
    (fresh.afterCalls (testCalls (some 0))).writeOutputs ⟨"out"⟩ {} =
      .ok true (({} : FileTree).put ["out"] "".toUTF8) := by
  obtain ⟨fresh, n, later, report, hmake, rfl, hlater, h, hlast, hrecording, hgroups, hset, hstage⟩ :=
    exists_test (some 0)
  have hreachable := Reachable.make hmake
  have hrecordable := Recordable.of_make (by decide) hmake
  have hattached : Attached (fun _ s => s.Faithful) (fresh.afterCalls (outputCalls oneEvent)) :=
    (Attached.of_make hmake).afterCalls lasting_faithful fun s hs _ _ =>
      (eq_of_mem_outputCalls hs ▸ obtainable_oneEvent).faithful
  obtain ⟨hnone, hrecorded⟩ := (hrecordable.afterCalls hreachable.sound (outputCalls oneEvent)).recording_of_completed
    (hreachable.afterCalls _).sound hattached h hstage.symm
  obtain ⟨recorded, houtputs⟩ := Option.ne_none_iff_exists'.1 fun hempty => hgroups (hnone.1 hempty)
  obtain ⟨_, _, _, _, _, hticks⟩ := hrecorded houtputs
  have hempty : recorded.ticks = [] := hticks.2 fun p hp => by
    rw [Echo.eventCount_of_presentations (.inr (.inl rfl)) hp, Nat.zero_mod]
  rw [houtputs] at hlast
  have hmarks : later.lastStage = ⟨false, some recorded⟩ := by rw [hlater, lastStage_of_make hmake, hlast]
  have hlegible : later.Legible := hlater ▸ (Legible.of_make hmake).afterCalls hreachable.sound hrecordable
    (Attached.of_make hmake) fun s hs => eq_of_mem_testCalls hs ▸ obtainable_oneEvent
  have hsound : later.Sound := hlater ▸ (hreachable.afterCalls (testCalls (some 0))).sound
  obtain ⟨_, lines, _, hlines, hwritten⟩ := hlegible.writeOutputs_eq hsound.topology hrecording
    (congrArg LastStage.aborted hmarks :) (congrArg LastStage.recorded hmarks :)
    (show ({} : FileTree).writable ⟨"out"⟩ = .ok ["out"] by decide +kernel)
  rw [OutputText.layout_eq_nil_iff.2 hempty] at hlines
  rw [hlines] at hwritten
  exact ⟨fresh, recorded, hmake, hlast, hempty, hlater ▸ hwritten⟩

end Network

end PerceptronMesh

import PerceptronMesh.Proofs.Example.Binding
import PerceptronMesh.Proofs.Network.Calls

/-!
What holds of the set that a network holds, once the set is compiled. Stages look at the topology
and the set without changing them, their checks read weights and compile the set, and every other
call leaves the set alone or leaves one that is not compiled, but for the attachment of a set that
comes compiled.
-/

namespace PerceptronMesh

namespace ExampleSet

variable {s other : ExampleSet}

theorem compiled_of_readAt {files : FileTree} {path : Path} {count : Nat}
    (h : s.readAt files path = .ok (count, other)) : other.compiled = none := by
  unfold readAt readText at h
  cases hread : files.readText path with
  | error cause =>
    rw [hread] at h
    cases h
  | ok text =>
    rw [hread] at h
    obtain ⟨contents, _, h⟩ := bind_eq_ok_iff.1 h
    cases h
    rfl

end ExampleSet

namespace Network

variable {n : Network Loopback}

/-- A property that looks at the topology and the set alone. -/
def OnInputs (P : Topology → Option ExampleSet → Prop) (n : Network Loopback) : Prop :=
  P n.topology n.exampleSet

/-- Running a stage looks at the topology and the set, and changes neither. -/
theorem inputs_after_runChecked (request : StageRequest) (n : Network Loopback) :
    (Step.after (runChecked request) n).topology = n.topology ∧
      (Step.after (runChecked request) n).exampleSet = n.exampleSet := by
  have hservice : IgnoresService (OnInputs fun t s => t = n.topology ∧ s = n.exampleSet) := fun _ _ h => h
  have hbuild (stage : StageDescriptor) :
      Step.Keeps (OnInputs fun t s => t = n.topology ∧ s = n.exampleSet) (buildGraph stage) :=
    keeps_buildGraph hservice.bearsRequests (fun _ _ _ h => h) stage
  exact keeps_runChecked hservice (fun _ _ _ h => h) hbuild (fun _ _ h => h) request n ⟨rfl, rfl⟩

/-- A property of a compiled set in a topology that compiling a set brings about, and that no
parameters and no weights take away. -/
structure Lasting (Q : Topology → ExampleSet → Prop) : Prop where
  of_compile : ∀ {t later : Topology} {s compiled : ExampleSet}, t.Sound → s.compiled = none →
    s.compile t = .ok (compiled, later) → Q later compiled
  of_same : ∀ {t later : Topology} {s : ExampleSet}, Q t s →
    later.mapGroups Group.withoutLearning = t.mapGroups Group.withoutLearning → Q later s

/-- The property holds of the network's set if that is compiled. -/
structure Attached (Q : Topology → ExampleSet → Prop) (n : Network Loopback) : Prop where
  topology : n.topology.Sound
  held : ∀ {s : ExampleSet}, n.exampleSet = some s → s.compiled ≠ none → Q n.topology s

namespace Attached

variable {Q : Topology → ExampleSet → Prop}

/-- Nothing is asked of a set that is not compiled. -/
theorem of_uncompiled {later : Network Loopback} (ht : later.topology.Sound)
    (hnone : ∀ s, later.exampleSet = some s → s.compiled = none) : Attached Q later := by
  refine ⟨ht, ?_⟩
  intro s hs hcompiled
  exact absurd (hnone s hs) hcompiled

theorem changeTopology {t : Topology} (ht : t.Sound) : Attached Q (n.changeTopology t) := by
  refine of_uncompiled ht ?_
  intro s hs
  obtain ⟨_, _, rfl⟩ := Option.map_eq_some_iff.1 hs
  rfl

theorem of_make {settings : Settings} {configuration : Configuration} {service : Loopback}
    (h : Network.make settings configuration service = .ok n) : Attached Q n := by
  obtain ⟨_, t, htopology, rfl⟩ := make_eq_ok h
  refine of_uncompiled (Topology.sound_of_make htopology) ?_
  intro s hs
  cases hs

variable (hQ : Lasting Q)
include hQ

theorem of_same (hn : Attached Q n) {later : Network Loopback}
    (htopology : later.topology.mapGroups Group.withoutLearning = n.topology.mapGroups Group.withoutLearning)
    (hset : later.exampleSet = n.exampleSet) : Attached Q later := by
  refine ⟨hn.topology.of_frame (Topology.frame_of_withoutLearning htopology).symm, ?_⟩
  intro s hs hcompiled
  rw [hset] at hs
  exact hQ.of_same (hn.held hs hcompiled) htopology

/-- Reading weights keeps the property, and the set. -/
theorem weightsRead (hn : Attached Q n) {files : FileTree} {read : Network Loopback}
    (h : n.WeightsRead files read) : Attached Q read ∧ read.exampleSet = n.exampleSet := by
  obtain rfl | ⟨_, _, _, _, _, hread, rfl⟩ := h
  · exact ⟨hn, rfl⟩
  · obtain ⟨values, rfl⟩ := Topology.readWeightsFile_eq_ok hread
    exact ⟨hn.of_same hQ (n.topology.withoutLearning_withWeights values) rfl, rfl⟩

/-- Compiling a set brings the property about, and changes nothing else of the set. -/
theorem examplesCompiled (hn : Attached Q n) {later : Network Loopback} (h : n.ExamplesCompiled later) :
    Attached Q later ∧ later.exampleSet.map ExampleSet.invalidate = n.exampleSet.map ExampleSet.invalidate := by
  obtain rfl | ⟨s, compiled, t, hs, hnone, hcompile, rfl⟩ := h
  · exact ⟨hn, rfl⟩
  obtain ⟨_, _, _, hcompiled⟩ | ⟨_, hmade, columns, _, ht⟩ := ExampleSet.compile_eq_ok hcompile
  · rw [hnone] at hcompiled
    cases hcompiled
  · refine ⟨⟨ht ▸ hn.topology.of_frame (n.topology.frame_withValues columns).symm, ?_⟩, ?_⟩
    · intro held hheld _
      cases hheld
      exact hQ.of_compile hn.topology hnone hcompile
    · rw [hs, Option.map_some, Option.map_some, hmade]
      rfl

/-- The checks keep the property, and of the set all but its compilation. -/
theorem keeps_preflight (files : FileTree) (target : Option ExampleSet) :
    Step.Keeps (fun n => Attached Q n ∧ n.exampleSet.map ExampleSet.invalidate = target) (preflight files) := by
  rintro n ⟨hn, rfl⟩
  obtain ⟨_, read, s, compiled, t, hread, _, hs, hcompile, _, h⟩ | ⟨reason, read, later, _, hread, hlater, h⟩ :=
    preflight_cases n files
  all_goals obtain ⟨hattached, hset⟩ := hn.weightsRead hQ hread
  · rw [Step.after_ok h, ← hset]
    exact hattached.examplesCompiled hQ (examplesCompiled_of_compile hs hcompile)
  · rw [Step.after_error h, ← hset]
    exact hattached.examplesCompiled hQ hlater

/-- So does a whole stage. -/
theorem keeps_stage (call : StageCall) (target : Option ExampleSet) :
    Step.Keeps (fun n => Attached Q n ∧ n.exampleSet.map ExampleSet.invalidate = target) call.run := by
  rintro n ⟨hn, htarget⟩
  have hstart : Attached Q { n with aborted := false } ∧ n.exampleSet.map ExampleSet.invalidate = target :=
    ⟨hn.of_same hQ rfl rfl, htarget⟩
  obtain ⟨_, _, h⟩ | ⟨reason, checked, _, _, hpre, h⟩ | ⟨checked, _, hpre, h⟩ :=
    runStage_cases n call.files (call.request n.settings)
  · rw [Step.after_ok ((call.run_eq n).trans h)]
    exact ⟨hn.of_same hQ rfl rfl, htarget⟩
  · obtain ⟨hchecked, hkept⟩ := (keeps_preflight hQ call.files target).error hstart hpre
    rw [Step.after_ok ((call.run_eq n).trans h)]
    exact ⟨hchecked.of_same hQ rfl rfl, hkept⟩
  · obtain ⟨hchecked, hkept⟩ := (keeps_preflight hQ call.files target).ok hstart hpre
    obtain ⟨htopology, hset⟩ := inputs_after_runChecked (call.request n.settings) checked
    rw [Step.after_congr ((call.run_eq n).trans h)]
    exact ⟨hchecked.of_same hQ (by rw [htopology]) hset, by rw [hset, hkept]⟩

/-- The set that a stage leaves is the attached one, whatever became of its compilation. -/
theorem exists_attached (hn : Attached Q n) {call : StageCall} {outcome : StageOutcome} {later : Network Loopback}
    (h : call.run n = .ok outcome later) {held : ExampleSet} (hheld : later.exampleSet = some held) :
    Attached Q later ∧ ∃ s, n.exampleSet = some s ∧ s.invalidate = held.invalidate := by
  obtain ⟨hlater, hkept⟩ := (keeps_stage hQ call _).ok ⟨hn, rfl⟩ h
  rw [hheld] at hkept
  exact ⟨hlater, Option.map_eq_some_iff.1 hkept.symm⟩

theorem markCoresStale (hn : Attached Q n) : Attached Q n.markCoresStale := by
  unfold Network.markCoresStale
  split
  · exact hn
  · exact hn.of_same hQ rfl rfl

/-- Reading examples, or failing to, compiles nothing. -/
theorem setExamplesFile (hn : Attached Q n) (files : FileTree) (path : Path) :
    Attached Q (Step.after (Network.setExamplesFile files path) n) := by
  obtain ⟨e, _, h⟩ | ⟨count, read, hread, h⟩ := setExamplesFile_cases n files path
  · rw [Step.after_error h]
    unfold exampleSetFor
    cases hset : n.exampleSet with
    | some s => exact hn.of_same hQ rfl hset.symm
    | none =>
      refine of_uncompiled hn.topology ?_
      intro s hs
      cases hs
      rfl
  · rw [Step.after_ok h]
    refine of_uncompiled hn.topology ?_
    intro s hs
    cases hs
    exact ExampleSet.compiled_of_readAt hread

theorem afterCall (hn : Attached Q n) {call : NetworkCall}
    (hattach : ∀ s, call = .attachExampleSet s → s.compiled ≠ none → ∀ t, Q t s) :
    Attached Q (n.afterCall call) := by
  cases call with
  | addGroup units roles inputFunctions outputFunctions label =>
    refine orKeep_of hn fun found h => ?_
    obtain ⟨grown, hadd, hlater⟩ := addGroup_eq_ok h
    rw [hlater]
    exact changeTopology (hn.topology.addGroup hadd)
  | addLink source destination label =>
    refine orKeep_of hn fun found h => ?_
    obtain ⟨linked, hlink, hlater⟩ := addLink_eq_ok h
    rw [hlater]
    exact changeTopology (hn.topology.addLink hlink)
  | setGroupParams id params =>
    refine orKeep_of hn fun later h => ?_
    obtain rfl | ⟨_, rfl⟩ := setGroupParams_eq_ok h
    · exact hn
    · apply markCoresStale hQ
      exact hn.of_same hQ (n.topology.withoutLearning_setParams id params) rfl
  | setParams params =>
    show Attached Q (n.setParams params)
    unfold Network.setParams
    dsimp only
    split
    · apply markCoresStale hQ
      exact hn.of_same hQ rfl rfl
    · exact hn.of_same hQ rfl rfl
  | setWeightsFile path => exact hn.of_same hQ rfl rfl
  | setExamplesFile files path => exact hn.setExamplesFile hQ files path
  | attachExampleSet s =>
    refine ⟨hn.topology, ?_⟩
    intro held hheld hcompiled
    cases hheld
    exact hattach s rfl hcompiled _
  | setRecording recording =>
    show Attached Q (n.setRecording recording)
    unfold Network.setRecording
    split
    · exact hn
    · exact hn.of_same hQ rfl rfl
  | stage call => exact (keeps_stage hQ call _ n ⟨hn, rfl⟩).1
  | finish =>
    show Attached Q (Step.after Network.finish n)
    obtain ⟨_, h⟩ | ⟨_, h⟩ := finish_cases n
    · rw [Step.after_ok h]
      exact hn
    · rw [Step.after_ok h]
      exact hn.of_same hQ rfl rfl
  | pushTestResults results => exact hn.of_same hQ rfl rfl

theorem afterCalls (hn : Attached Q n) {calls : List NetworkCall}
    (hattach : ∀ s, .attachExampleSet s ∈ calls → s.compiled ≠ none → ∀ t, Q t s) :
    Attached Q (n.afterCalls calls) := by
  induction calls generalizing n with
  | nil => exact hn
  | cons call rest ih =>
    have hnext : Attached Q (n.afterCall call) :=
      hn.afterCall hQ fun s hcall => hattach s (hcall ▸ List.mem_cons_self)
    exact ih hnext fun s hs => hattach s (List.mem_cons_of_mem _ hs)

end Attached

/-- Running a stage touches neither the mark of an aborted one nor what is chosen to be recorded. -/
theorem options_after_runChecked (request : StageRequest) (n : Network Loopback) :
    (Step.after (runChecked request) n).aborted = n.aborted ∧
      (Step.after (runChecked request) n).recording = n.recording := by
  let Same (later : Network Loopback) : Prop := later.aborted = n.aborted ∧ later.recording = n.recording
  have hservice : IgnoresService Same := fun _ _ h => h
  have hbuild (stage : StageDescriptor) : Step.Keeps Same (buildGraph stage) :=
    keeps_buildGraph hservice.bearsRequests (fun _ _ _ h => h) stage
  exact keeps_runChecked hservice (fun _ _ _ h => h) hbuild (fun _ _ h => h) request n ⟨rfl, rfl⟩

/-- The network as the checks before a stage leave it. -/
def afterChecks (call : StageCall) (n : Network Loopback) : Network Loopback :=
  Step.after (preflight call.files) { n with aborted := false }

/-- A stage that is completed leaves the topology, the set and the choice of what is recorded as the
checks did. -/
theorem inputs_of_completed {call : StageCall} {report : StageReport} {later : Network Loopback}
    (h : call.run n = .ok (.completed report) later) :
    preflight call.files { n with aborted := false } = .ok () (n.afterChecks call) ∧
      later.topology = (n.afterChecks call).topology ∧
      later.exampleSet = (n.afterChecks call).exampleSet ∧
      later.recording = (n.afterChecks call).recording := by
  rw [call.run_eq] at h
  obtain ⟨_, _, hrun⟩ | ⟨_, _, _, _, _, hrun⟩ | ⟨checked, _, hpre, hrun⟩ :=
    runStage_cases n call.files (call.request n.settings)
  · cases h.symm.trans hrun
  · cases h.symm.trans hrun
  · obtain ⟨htopology, hset⟩ := inputs_after_runChecked (call.request n.settings) checked
    obtain ⟨_, hrecording⟩ := options_after_runChecked (call.request n.settings) checked
    rw [Step.after_ok (hrun.symm.trans h)] at htopology hset hrecording
    have hafter : n.afterChecks call = checked := Step.after_ok hpre
    rw [hafter]
    exact ⟨hpre, htopology, hset, hrecording⟩

theorem Sound.exists_completed (hn : n.Sound) (call : StageCall) (hpasses : n.Passes call.files)
    (hkeys : ¬n.LacksKeys) : ∃ report later, call.run n = .ok (.completed report) later := by
  obtain ⟨hfails, _⟩ | ⟨_, _, report, later, h, _⟩ | ⟨_, hlacks, _⟩ := hn.stage_cases call
  · exact absurd hpasses hfails
  · exact ⟨report, later, h⟩
  · exact absurd hlacks hkeys

/-- The checks of a stage that is completed left a compiled set. -/
theorem Sound.compiled_of_completed (hn : n.Sound) {call : StageCall} {report : StageReport}
    {later : Network Loopback} (h : call.run n = .ok (.completed report) later) :
    ∃ s, later.exampleSet = some s ∧ s.compiled ≠ none := by
  obtain ⟨hpre, _, hset, _⟩ := inputs_of_completed h
  obtain ⟨_, _, hfit, hpass⟩ | ⟨_, _, _, hfail⟩ := (hn.withAborted false).preflight_cases call.files
  · cases hpre.symm.trans hpass
    obtain ⟨examples, hexamples⟩ := hfit.compiled
    rw [← hset, Option.bind_eq_some_iff] at hexamples
    obtain ⟨s, hs, hcompiled⟩ := hexamples
    exact ⟨s, hs, by simp [hcompiled]⟩
  · cases hpre.symm.trans hfail

/-- Weights for a network with an output group of one unit. -/
def outputFiles : FileTree := { files := [(["weights"], "1431655766\n1\n1\n0\n0\n".toUTF8)] }

/-- A set of one event. -/
def oneEvent : ExampleSet := { label := "one", examples := [{ events := [{}] }], loaded := true }

/-- Two examples, the second of two events, with a target at each event. -/
def twoExamples : ExampleSet :=
  { label := "two"
    examples := [{ events := [.targeted (.ofRatio false 1 2)] },
      { events := [.targeted (.ofNat 1), .targeted (.zero false)] }]
    loaded := true }

/-- What a network with an output group of one unit needs to run stages. -/
def outputCalls (s : ExampleSet) : List NetworkCall :=
  [.addGroup 1 (.ofList [.output]) none none none, .setWeightsFile ⟨"weights"⟩, .attachExampleSet s]

theorem eq_of_mem_outputCalls {s other : ExampleSet} (h : .attachExampleSet other ∈ outputCalls s) :
    other = s := by
  simpa [outputCalls] using h

end Network

end PerceptronMesh

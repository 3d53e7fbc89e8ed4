import PerceptronMesh.Proofs.Network.Stages

/-!
The calls of a network and the states they lead to, over a loopback that is touched by the
network and by queueing test results alone. Whatever calls came before, a stage fails only for
want of routing keys, and one that is completed leaves every unit with what is built for it.
-/

namespace PerceptronMesh

open Numeric

/-- The calls that run a stage, each with the files that are there at the time. -/
inductive StageCall where
  | train (files : FileTree) (updateFunction : Option UpdateFunction) (updates : Option UInt32)
  | test (files : FileTree) (examples : Option UInt32) (reset : Bool)

namespace StageCall

def files : StageCall → FileTree
  | .train files _ _ => files
  | .test files _ _ => files

/-- What the call asks of the stage. -/
def request (settings : Settings) : StageCall → Network.StageRequest
  | .train _ updateFunction updates =>
    { mode := .train, updateFunction := updateFunction.getD settings.updateFunction, reset := true
      examples := none, epochs := updates.getD settings.updates }
  | .test _ examples reset =>
    { mode := .test, updateFunction := settings.updateFunction, reset, examples, epochs := 1 }

def run : StageCall → Step (Network Loopback) StageOutcome
  | .train files updateFunction updates => Network.train files updateFunction updates
  | .test files examples reset => Network.test files examples reset

theorem run_eq (call : StageCall) (n : Network Loopback) :
    call.run n = Network.runStage call.files (call.request n.settings) n := by
  cases call <;> rfl

end StageCall

/-- The calls of a network, and the queueing of test results at its service. -/
inductive NetworkCall where
  | addGroup (units : Nat) (roles : Roles) (inputFunctions : Option (List InputFunction))
      (outputFunctions : Option (List OutputFunction)) (label : Option String)
  | addLink (source destination : GroupId) (label : Option String)
  | setGroupParams (id : GroupId) (params : GroupParams)
  | setParams (params : NetworkParams)
  | setWeightsFile (path : Path)
  | setExamplesFile (files : FileTree) (path : Path)
  | attachExampleSet (s : ExampleSet)
  | setRecording (recording : Recording)
  | stage (call : StageCall)
  | finish
  | pushTestResults (results : TestResults)

namespace Network

/-- The network that a result leads to, or the one before a refusal. -/
def orKeep {α : Type} (n : Network Loopback) (result : Result α) (network : α → Network Loopback) :
    Network Loopback :=
  match result with
  | .ok found => network found
  | .error _ => n

/-- The network after a call. One that is refused leaves the network as it was, and one that
fails on its way leaves what it did. -/
def afterCall (n : Network Loopback) : NetworkCall → Network Loopback
  | .addGroup units roles inputFunctions outputFunctions label =>
    n.orKeep (n.addGroup units roles inputFunctions outputFunctions label) (·.2)
  | .addLink source destination label => n.orKeep (n.addLink source destination label) (·.2)
  | .setGroupParams id params => n.orKeep (n.setGroupParams id params) fun later => later
  | .setParams params => n.setParams params
  | .setWeightsFile path => n.setWeightsFile path
  | .setExamplesFile files path => Step.after (setExamplesFile files path) n
  | .attachExampleSet s => n.attachExampleSet s
  | .setRecording recording => n.setRecording recording
  | .stage call => Step.after call.run n
  | .finish => Step.after finish n
  | .pushTestResults results => { n with service := n.service.pushTestResults results }

def afterCalls (n : Network Loopback) (calls : List NetworkCall) : Network Loopback :=
  calls.foldl afterCall n

/-- The networks over a new loopback that calls can lead to. -/
inductive Reachable : Network Loopback → Prop
  | make {settings : Settings} {configuration : Configuration} {keySpace : Nat} {n : Network Loopback} :
      Network.make settings configuration { keySpace } = .ok n → Reachable n
  | call {n : Network Loopback} (call : NetworkCall) : Reachable n → Reachable (n.afterCall call)

variable {n : Network Loopback}

/-- The checks of a stage pass. -/
def Passes (n : Network Loopback) (files : FileTree) : Prop :=
  n.ended = false ∧ ∃ checked, preflight files { n with aborted := false } = .ok () checked

instance (n : Network Loopback) (files : FileTree) : Decidable (n.Passes files) :=
  match h : preflight files { n with aborted := false } with
  | .ok () checked =>
    decidable_of_iff (n.ended = false) ⟨fun hended => ⟨hended, checked, h⟩, fun hpasses => hpasses.1⟩
  | .error _ _ => .isFalse <| by
    rintro ⟨_, _, hpass⟩
    cases h.symm.trans hpass

theorem Sound.withAborted (hn : n.Sound) (aborted : Bool) : { n with aborted }.Sound := by
  refine ⟨hn.topology, hn.filled, hn.limits, hn.running, ?_⟩
  intro hended graph hbuilt
  exact (hn.loaded hended hbuilt).withHistory _ _ _ _

/-- Whether keys are wanting is settled before the checks. -/
theorem Checked.lacksKeys_iff {checked : Network Loopback} (h : n.Checked checked) :
    checked.LacksKeys ↔ n.LacksKeys := by
  obtain ⟨topology, _, _, rfl⟩ := h.changed
  have hcompile : compile topology n.limits = compile n.topology n.limits :=
    Topology.compile_of_frame h.frame_eq n.limits
  unfold LacksKeys
  simp only [hcompile]

theorem Checked.descriptor_eq {checked : Network Loopback} (h : n.Checked checked) (request : StageRequest) :
    checked.descriptor request = n.descriptor request := by
  have hcount : checked.exampleSet.map (·.examples.length) = n.exampleSet.map (·.examples.length) := by
    have hlength := congrArg (Option.map List.length) h.examples_eq
    rw [Option.map_map, Option.map_map] at hlength
    exact hlength
  unfold descriptor
  rw [hcount]
  obtain ⟨_, _, _, rfl⟩ := h.changed
  rfl

/-- A stage that passes the checks is run on the network that they leave. -/
theorem runStage_cases (n : Network Loopback) (files : FileTree) (request : StageRequest) :
    (¬n.Passes files ∧ n.ended = true ∧
        runStage files request n = .ok (.aborted .ended) { n with aborted := true }) ∨
      (∃ reason checked, ¬n.Passes files ∧ n.ended = false ∧
        preflight files { n with aborted := false } = .error reason checked ∧
        runStage files request n = .ok (.aborted reason) { checked with aborted := true }) ∨
      ∃ checked, n.Passes files ∧ preflight files { n with aborted := false } = .ok () checked ∧
        runStage files request n = runChecked request checked := by
  by_cases hended : n.ended = true
  · refine .inl ⟨?_, hended, runStage_of_ended hended⟩
    rintro ⟨hrunning, _⟩
    cases hended.symm.trans hrunning
  have hrunning := Bool.eq_false_iff.2 hended
  cases h : preflight files { n with aborted := false } with
  | error reason checked =>
    refine .inr (.inl ⟨reason, checked, ?_, hrunning, rfl, runStage_of_fails hrunning h⟩)
    rintro ⟨_, other, hpass⟩
    cases h.symm.trans hpass
  | ok _ checked => exact .inr (.inr ⟨checked, ⟨hrunning, checked, h⟩, rfl, runStage_of_passes hrunning h⟩)

/-- The checks of a stage abort it or leave a sound network to run it on. -/
theorem Sound.checked_cases (hn : n.Sound) (call : StageCall) :
    (¬n.Passes call.files ∧ ∃ reason checked, { n with aborted := false }.Checked checked ∧
        call.run n = .ok (.aborted reason) { checked with aborted := true }) ∨
      ∃ checked, n.Passes call.files ∧ { n with aborted := false }.Checked checked ∧ checked.Fit ∧
        call.run n = runChecked (call.request n.settings) checked := by
  have hstart := hn.withAborted false
  rw [call.run_eq]
  obtain ⟨hfails, _, h⟩ | ⟨reason, checked, hfails, _, hpre, h⟩ | ⟨checked, hpasses, hpre, h⟩ :=
    runStage_cases n call.files (call.request n.settings)
  · exact .inl ⟨hfails, .ended, _, hstart.checked, h⟩
  · obtain ⟨_, _, _, hpass⟩ | ⟨_, _, hchecked, hfail⟩ := hstart.preflight_cases call.files
    · cases hpre.symm.trans hpass
    · cases hpre.symm.trans hfail
      exact .inl ⟨hfails, reason, checked, hchecked, h⟩
  · obtain ⟨_, hchecked, hfit, hpass⟩ | ⟨_, _, _, hfail⟩ := hstart.preflight_cases call.files
    · cases hpre.symm.trans hpass
      exact .inr ⟨checked, hpasses, hchecked, hfit, h⟩
    · cases hpre.symm.trans hfail

/-- How a stage ends. -/
theorem Sound.stage_cases (hn : n.Sound) (call : StageCall) :
    (¬n.Passes call.files ∧ ∃ reason later, call.run n = .ok (.aborted reason) later ∧ later.Sound) ∨
      (n.Passes call.files ∧ ¬n.LacksKeys ∧ ∃ report later, call.run n = .ok (.completed report) later ∧
        later.Sound ∧ later.Rebuilt (n.descriptor (call.request n.settings)) ∧
        later.service.runs = n.service.runs.push (n.descriptor (call.request n.settings))) ∨
      (n.Passes call.files ∧ n.LacksKeys ∧ ∃ name later,
        call.run n = .error (.placement (.keysExhausted name)) later ∧ later.Sound) := by
  obtain ⟨hfails, reason, checked, hchecked, h⟩ | ⟨checked, hpasses, hchecked, hfit, h⟩ := hn.checked_cases call
  · exact .inl ⟨hfails, reason, _, h, hchecked.sound.withAborted true⟩
  have hkept : checked.ended = false := by
    obtain ⟨_, _, _, hchanged⟩ := hchecked.changed
    rw [hchanged]
    exact hpasses.1
  have hruns : checked.service.runs = n.service.runs := by
    obtain ⟨_, _, _, hchanged⟩ := hchecked.changed
    rw [hchanged]
  have hlacks : checked.LacksKeys ↔ n.LacksKeys := hchecked.lacksKeys_iff
  have hdescriptor : checked.descriptor (call.request n.settings) = n.descriptor (call.request n.settings) :=
    hchecked.descriptor_eq _
  obtain ⟨hkeys, report, later, hrun, hlater, hrebuilt, hpushed, _⟩ | ⟨hwanting, name, hfault⟩ :=
    hchecked.sound.runChecked_cases hkept hfit (call.request n.settings)
  · rw [hdescriptor] at hrebuilt hpushed
    exact .inr (.inl ⟨hpasses, fun h => hkeys (hlacks.2 h), report, later, h.trans hrun, hlater, hrebuilt,
      hruns ▸ hpushed⟩)
  · exact .inr (.inr ⟨hpasses, hlacks.1 hwanting, name, checked, h.trans hfault, hchecked.sound⟩)

section OrKeep

variable {α : Type} {result : Result α} {network : α → Network Loopback}

theorem orKeep_ok {found : α} (h : result = .ok found) : n.orKeep result network = network found := by
  rw [h]
  rfl

theorem orKeep_error {e : Error} (h : result = .error e) : n.orKeep result network = n := by
  rw [h]
  rfl

end OrKeep

/-- What holds before a call that may be refused and after it is accepted. -/
theorem orKeep_of {P : Network Loopback → Prop} (hn : P n) {α : Type} {result : Result α}
    {network : α → Network Loopback} (h : ∀ found, result = .ok found → P (network found)) :
    P (n.orKeep result network) := by
  unfold orKeep
  cases hresult : result with
  | ok found => exact h found hresult
  | error e => exact hn

/-- What the calls leave alone that neither run a stage nor queue results for one: the number of the
next stage, whether the last was aborted, and all of the service but that it may be stopped. -/
structure KeepsRuns (n later : Network Loopback) : Prop where
  stageId_eq : later.stageId = n.stageId
  aborted_eq : later.aborted = n.aborted
  service_eq : { later.service with stopped := n.service.stopped } = n.service

theorem keepsRuns_refl (n : Network Loopback) : n.KeepsRuns n := ⟨rfl, rfl, rfl⟩

theorem KeepsRuns.markCoresStale {later : Network Loopback} (h : n.KeepsRuns later) :
    n.KeepsRuns later.markCoresStale := by
  unfold Network.markCoresStale
  split
  · exact h
  · exact ⟨h.stageId_eq, h.aborted_eq, h.service_eq⟩

theorem keepsRuns_afterCall (n : Network Loopback) {call : NetworkCall} (hstage : ∀ stage, call ≠ .stage stage)
    (hqueue : ∀ results, call ≠ .pushTestResults results) : n.KeepsRuns (n.afterCall call) := by
  cases call with
  | stage call => exact absurd rfl (hstage call)
  | pushTestResults results => exact absurd rfl (hqueue results)
  | addGroup units roles inputFunctions outputFunctions label =>
    refine orKeep_of n.keepsRuns_refl fun _ h => ?_
    obtain ⟨_, _, hlater⟩ := addGroup_eq_ok h
    rw [hlater]
    exact ⟨rfl, rfl, rfl⟩
  | addLink source destination label =>
    refine orKeep_of n.keepsRuns_refl fun _ h => ?_
    obtain ⟨_, _, hlater⟩ := addLink_eq_ok h
    rw [hlater]
    exact ⟨rfl, rfl, rfl⟩
  | setGroupParams id params =>
    refine orKeep_of n.keepsRuns_refl fun _ h => ?_
    obtain rfl | ⟨_, rfl⟩ := setGroupParams_eq_ok h
    · exact keepsRuns_refl _
    · exact KeepsRuns.markCoresStale ⟨rfl, rfl, rfl⟩
  | setParams params =>
    show n.KeepsRuns (n.setParams params)
    unfold Network.setParams
    dsimp only
    split
    · exact KeepsRuns.markCoresStale ⟨rfl, rfl, rfl⟩
    · exact ⟨rfl, rfl, rfl⟩
  | setWeightsFile path => exact ⟨rfl, rfl, rfl⟩
  | setExamplesFile files path =>
    show n.KeepsRuns (Step.after (Network.setExamplesFile files path) n)
    obtain ⟨_, _, h⟩ | ⟨_, _, _, h⟩ := setExamplesFile_cases n files path
    · rw [Step.after_error h]
      exact ⟨rfl, rfl, rfl⟩
    · rw [Step.after_ok h]
      exact ⟨rfl, rfl, rfl⟩
  | attachExampleSet s => exact ⟨rfl, rfl, rfl⟩
  | setRecording recording =>
    show n.KeepsRuns (n.setRecording recording)
    unfold Network.setRecording
    split
    · exact n.keepsRuns_refl
    · exact ⟨rfl, rfl, rfl⟩
  | finish =>
    show n.KeepsRuns (Step.after Network.finish n)
    obtain ⟨_, h⟩ | ⟨_, h⟩ := finish_cases n
    · rw [Step.after_ok h]
      exact n.keepsRuns_refl
    · rw [Step.after_ok h]
      exact ⟨rfl, rfl, rfl⟩

theorem Sound.afterCall (hn : n.Sound) (call : NetworkCall) : (n.afterCall call).Sound := by
  cases call with
  | addGroup units roles inputFunctions outputFunctions label => exact orKeep_of hn fun _ h => hn.addGroup h
  | addLink source destination label => exact orKeep_of hn fun _ h => hn.addLink h
  | setGroupParams id params => exact orKeep_of hn fun _ h => hn.setGroupParams h
  | setParams params => exact hn.setParams params
  | setWeightsFile path => exact hn.setWeightsFile path
  | setExamplesFile files path => exact hn.setExamplesFile files path
  | attachExampleSet s => exact hn.attachExampleSet s
  | setRecording recording => exact hn.setRecording recording
  | stage call =>
    have hlater : (Step.after call.run n).Sound := by
      obtain ⟨_, _, _, h, hlater⟩ | ⟨_, _, _, _, h, hlater, _⟩ | ⟨_, _, _, _, h, hlater⟩ := hn.stage_cases call
      · rw [Step.after_ok h]
        exact hlater
      · rw [Step.after_ok h]
        exact hlater
      · rw [Step.after_error h]
        exact hlater
    exact hlater
  | finish => exact hn.finish
  | pushTestResults results => exact hn.pushTestResults results

/-- Whatever calls led to it, a network is sound. -/
theorem Reachable.sound (hn : n.Reachable) : n.Sound := by
  induction hn with
  | make h => exact sound_of_make rfl h
  | call call _ ih => exact ih.afterCall call

theorem Reachable.afterCalls (hn : n.Reachable) (calls : List NetworkCall) :
    (n.afterCalls calls).Reachable := by
  induction calls generalizing n with
  | nil => exact hn
  | cons call rest ih => exact ih (.call call hn)

/-- Once the checks pass, the graph compiles, and with the keys it is placed with the payloads
of all its units can be built. -/
theorem Sound.exists_payloads (hn : n.Sound) (hended : n.ended = false) (hfit : n.Fit) :
    ∃ compiled, compile n.topology n.limits = .ok compiled ∧
      ∀ table placed, Loopback.place compiled.graph n.service = .ok table placed → ∀ stage,
        ∃ s payloads, n.payloadSource compiled table = .ok s ∧ s.buildAll stage = .ok payloads := by
  obtain ⟨compiled, hcompile⟩ := hfit.exists_compiled hn
  obtain ⟨examples, hexamples⟩ := hfit.compiled
  refine ⟨compiled, hcompile, ?_⟩
  intro table placed hplace stage
  obtain ⟨_, other, hcovers, hok⟩ | ⟨_, _, hfault⟩ := Loopback.place_cases (hn.running hended) compiled.graph
  · cases hplace.symm.trans hok
    have hs := source_sound hn.topology hn.filled hcompile hcovers examples
    obtain ⟨_, _, hbuildAll⟩ := hs.exists_buildAll stage
    exact ⟨_, _, payloadSource_eq hexamples compiled table, hbuildAll⟩
  · cases hplace.symm.trans hfault

/-- A stage is aborted if its checks do not pass, fails if it has to build a graph with more
partitions than there are keys for, and is completed otherwise. It never fails in another way:
what passed the checks compiles, and its payloads can be built. -/
theorem Reachable.stage_outcome (hn : n.Reachable) (call : StageCall) :
    ((¬n.Passes call.files ∧ ∃ reason later, call.run n = .ok (.aborted reason) later) ∨
      (n.Passes call.files ∧ ¬n.LacksKeys ∧ ∃ report later, call.run n = .ok (.completed report) later) ∨
      (n.Passes call.files ∧ n.LacksKeys ∧
        ∃ name later, call.run n = .error (.placement (.keysExhausted name)) later)) ∧
    ∀ checked, n.ended = false → preflight call.files { n with aborted := false } = .ok () checked →
      ∃ compiled, compile checked.topology checked.limits = .ok compiled ∧
        ∀ table placed, Loopback.place compiled.graph checked.service = .ok table placed → ∀ stage,
          ∃ s payloads, checked.payloadSource compiled table = .ok s ∧ s.buildAll stage = .ok payloads := by
  refine ⟨?_, ?_⟩
  · obtain ⟨hfails, reason, later, h, _⟩ | ⟨hpasses, hkeys, report, later, h, _⟩ |
        ⟨hpasses, hkeys, name, later, h, _⟩ := hn.sound.stage_cases call
    · exact .inl ⟨hfails, reason, later, h⟩
    · exact .inr (.inl ⟨hpasses, hkeys, report, later, h⟩)
    · exact .inr (.inr ⟨hpasses, hkeys, name, later, h⟩)
  · intro checked hended hpass
    obtain ⟨other, hchecked, hfit, hother⟩ | ⟨_, _, _, hfail⟩ :=
      (hn.sound.withAborted false).preflight_cases call.files
    · cases hpass.symm.trans hother
      obtain ⟨_, _, _, rfl⟩ := hchecked.changed
      exact hchecked.sound.exists_payloads hended hfit
    · cases hpass.symm.trans hfail

/-- Weights for a network without links. -/
def noLinkFiles : FileTree := { files := [(["weights"], "1431655766\n0\n1\n0\n".toUTF8)] }

/-- What a network of the bias group alone needs to run stages. -/
def biasCalls : List NetworkCall :=
  [.setWeightsFile ⟨"weights"⟩, .attachExampleSet { label := "one", examples := [{}], loaded := true }]

/-- Keys of almost a word each run out at the second partition. -/
theorem stage_outcome_few_keys : ∃ n, Network.make {} {} ({ keySpace := maxWord32 } : Loopback) = .ok n ∧
    ∃ name later, (StageCall.train noLinkFiles none none).run (n.afterCalls biasCalls) =
      .error (.placement (.keysExhausted name)) later := by
  obtain ⟨n, hmake, hpasses, hkeys⟩ : ∃ n, Network.make {} {} ({ keySpace := maxWord32 } : Loopback) = .ok n ∧
      (n.afterCalls biasCalls).Passes noLinkFiles ∧ (n.afterCalls biasCalls).LacksKeys :=
    ⟨_, rfl, by decide +kernel, by decide +kernel⟩
  have hn : n.Reachable := .make hmake
  obtain ⟨⟨hfails, _⟩ | ⟨_, henough, _⟩ | ⟨_, _, name, later, h⟩, _⟩ :=
    Reachable.stage_outcome (hn.afterCalls biasCalls) (.train noLinkFiles none none)
  · exact absurd hpasses hfails
  · exact absurd hkeys henough
  · exact ⟨n, hmake, name, later, h⟩

/-- A stage that is completed leaves units that hold what a full build makes for it. -/
theorem Reachable.completed_rebuilt (hn : n.Reachable) {call : StageCall} {report : StageReport}
    {later : Network Loopback} (h : call.run n = .ok (.completed report) later) :
    later.Rebuilt (n.descriptor (call.request n.settings)) ∧
      later.service.runs = n.service.runs.push (n.descriptor (call.request n.settings)) := by
  obtain ⟨_, _, _, hrun, _⟩ | ⟨_, _, _, _, hrun, _, hrebuilt, hruns⟩ | ⟨_, _, _, _, hrun, _⟩ :=
    hn.sound.stage_cases call
  · cases h.symm.trans hrun
  · cases h.symm.trans hrun
    exact ⟨hrebuilt, hruns⟩
  · cases h.symm.trans hrun

/-- Calls after which weights and parameters of a loaded graph are stale. -/
def staleCalls : List NetworkCall :=
  biasCalls ++ [.stage (.test noLinkFiles none true), .setWeightsFile ⟨"weights"⟩,
    .setParams { learningRate := some (.ofRatio false 1 2) }]

/-- A stage that patches a loaded graph leaves what a full build makes. -/
theorem completed_rebuilt_stale : ∃ n, Network.make {} {} ({ keySpace := 65536 } : Loopback) = .ok n ∧
    (n.afterCalls staleCalls).built.map (fun graph => (graph.weightsStale, graph.coresStale)) =
      some (true, true) ∧
    ∃ report later stage,
      (StageCall.train noLinkFiles none none).run (n.afterCalls staleCalls) = .ok (.completed report) later ∧
      later.Rebuilt stage := by
  obtain ⟨n, hmake, hstale, hpasses, hkeys⟩ : ∃ n,
      Network.make {} {} ({ keySpace := 65536 } : Loopback) = .ok n ∧
      (n.afterCalls staleCalls).built.map (fun graph => (graph.weightsStale, graph.coresStale)) =
        some (true, true) ∧
      (n.afterCalls staleCalls).Passes noLinkFiles ∧ ¬(n.afterCalls staleCalls).LacksKeys :=
    ⟨_, rfl, by decide +kernel, by decide +kernel, by decide +kernel⟩
  have hn : n.Reachable := .make hmake
  have hlater := hn.afterCalls staleCalls
  obtain ⟨hfails, _⟩ | ⟨_, _, report, later, h, _⟩ | ⟨_, hlacks, _⟩ :=
    hlater.sound.stage_cases (.train noLinkFiles none none)
  · exact absurd hpasses hfails
  · exact ⟨n, hmake, hstale, report, later, _, h, (Reachable.completed_rebuilt hlater h).1⟩
  · exact absurd hlacks hkeys

end Network

end PerceptronMesh

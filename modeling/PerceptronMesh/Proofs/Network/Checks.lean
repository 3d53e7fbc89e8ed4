import PerceptronMesh.Network.Stage
import PerceptronMesh.Proofs.Example.Binding
import PerceptronMesh.Proofs.Placement.Step

/-!
The checks before a stage, over any service. What speaks against a stage is settled before the
checks begin: neither reading weights nor compiling examples brings up a reason or takes one away.
The checks give the first reason that there is, and leave no more behind than the weights and the
compiled examples that they came to.
-/

namespace PerceptronMesh

namespace ExampleSet

variable {s compiled : ExampleSet} {t other later : Topology}

theorem compile_eq_ok (h : s.compile t = .ok (compiled, later)) :
    (compiled = s ∧ later = t ∧ ∃ examples, s.compiled = some examples) ∨
      (s.compiled = none ∧ compiled = { s with compiled := some (.ofExamples s.header.times s.examples) } ∧
        ∃ columns, Binding.columns t s.header.defaults (s.examples.flatMap (·.events)) = .ok columns ∧
          later = t.withValues columns) := by
  unfold compile at h
  cases hcompiled : s.compiled with
  | some examples =>
    rw [hcompiled] at h
    cases h
    exact .inl ⟨rfl, rfl, examples, rfl⟩
  | none =>
    rw [hcompiled] at h
    cases hcolumns : Binding.columns t s.header.defaults (s.examples.flatMap (·.events)) with
    | error e =>
      rw [hcolumns] at h
      cases h
    | ok columns =>
      rw [hcolumns] at h
      cases h
      exact .inr ⟨rfl, rfl, columns, rfl, rfl⟩

/-- Whether a set compiles, and to what records, is a matter of the frame. -/
theorem compile_of_frame (h : t.frame = other.frame) :
    (s.compile t).map (·.1) = (s.compile other).map (·.1) := by
  unfold compile
  cases s.compiled with
  | some examples => rfl
  | none =>
    simp only [Binding.columns_of_frame h]
    cases Binding.columns other s.header.defaults (s.examples.flatMap (·.events)) <;> rfl

end ExampleSet

namespace Network

variable {σ : Type} {n later : Network σ}

/-- A group that is too large speaks against a stage, the first of them before the others. -/
def sizeReasons (n : Network σ) : List AbortReason :=
  (n.topology.oversizedGroups n.limits.maxGroupUnits).map fun g =>
    .oversizedGroup g.label g.units n.limits.maxGroupUnits

/-- So does a weights file that is not given, or that is still to be read and does not fit. -/
def weightsReasons (n : Network σ) (files : FileTree) : List AbortReason :=
  match n.weightsFile with
  | none => [.noWeightsFile]
  | some path =>
    if n.weightsLoaded then []
    else match n.topology.readWeightsFile files path with
      | .error e => [.weightsFile e]
      | .ok _ => []

/-- So do examples that are missing, that were never loaded, that do not bind, or that are none. -/
def exampleReasons (n : Network σ) : List AbortReason :=
  match n.exampleSet with
  | none => [.noExampleSet]
  | some s =>
    (if s.loaded then [] else [.examplesNotLoaded]) ++
      match (s.compile n.topology).map (·.1) with
      | .error e => [.exampleCompile e]
      | .ok compiled => if compiled.compiledCount = 0 then [.noExamples] else []

/-- All reasons to abort a stage, in the order in which they count. -/
def abortReasons (n : Network σ) (files : FileTree) : List AbortReason :=
  (if n.ended then [.ended] else []) ++ (n.sizeReasons ++ n.weightsReasons files ++ n.exampleReasons)

/-- Weights are as they were, or those of the file took their place. -/
def WeightsRead (n : Network σ) (files : FileTree) (later : Network σ) : Prop :=
  later = n ∨ n.weightsLoaded = false ∧ ∃ path info read, n.weightsFile = some path ∧
    n.topology.readWeightsFile files path = .ok (info, read) ∧
    later = { n with topology := read, weightsLoaded := true }

/-- Examples are as they were, or they are now compiled. -/
def ExamplesCompiled (n later : Network σ) : Prop :=
  later = n ∨ ∃ s compiled t, n.exampleSet = some s ∧ s.compiled = none ∧
    s.compile n.topology = .ok (compiled, t) ∧ later = { n with exampleSet := some compiled, topology := t }

theorem examplesCompiled_of_compile {s compiled : ExampleSet} {t : Topology} (hs : n.exampleSet = some s)
    (h : s.compile n.topology = .ok (compiled, t)) :
    n.ExamplesCompiled { n with exampleSet := some compiled, topology := t } := by
  obtain ⟨rfl, rfl, _⟩ | ⟨hnone, _⟩ := ExampleSet.compile_eq_ok h
  · exact .inl (by rw [← hs])
  · exact .inr ⟨s, compiled, t, hs, hnone, h, rfl⟩

/-- Weights are read into a topology without changing its frame. -/
theorem WeightsRead.limits_and_frame {files : FileTree} (h : n.WeightsRead files later) :
    later.limits = n.limits ∧ later.topology.frame = n.topology.frame := by
  obtain rfl | ⟨_, _, _, _, _, hread, rfl⟩ := h
  · exact ⟨rfl, rfl⟩
  obtain ⟨values, rfl⟩ := Topology.readWeightsFile_eq_ok hread
  exact ⟨rfl, n.topology.frame_withWeights values⟩

theorem ExamplesCompiled.limits_and_frame (h : n.ExamplesCompiled later) :
    later.limits = n.limits ∧ later.topology.frame = n.topology.frame := by
  obtain rfl | ⟨_, _, _, _, hnone, hcompile, rfl⟩ := h
  · exact ⟨rfl, rfl⟩
  obtain ⟨_, _, _, hcompiled⟩ | ⟨_, _, columns, _, rfl⟩ := ExampleSet.compile_eq_ok hcompile
  · cases hnone.symm.trans hcompiled
  · exact ⟨rfl, n.topology.frame_withValues columns⟩

/-- The weights of a file are no part of what examples are bound to. -/
theorem WeightsRead.exampleReasons_eq {files : FileTree} (h : n.WeightsRead files later) :
    later.exampleReasons = n.exampleReasons := by
  obtain rfl | ⟨_, path, info, read, _, hread, rfl⟩ := h
  · rfl
  obtain ⟨values, rfl⟩ := Topology.readWeightsFile_eq_ok hread
  unfold exampleReasons
  cases n.exampleSet with
  | none => rfl
  | some s => simp only [ExampleSet.compile_of_frame (n.topology.frame_withWeights values)]

theorem checkSizes_cases (n : Network σ) :
    (n.sizeReasons = [] ∧ checkSizes n = .ok () n) ∨
      ∃ reason, n.sizeReasons.head? = some reason ∧ checkSizes n = .error reason n := by
  unfold checkSizes sizeReasons
  rw [Step.bind_ok (x := get) rfl]
  cases n.topology.oversizedGroups n.limits.maxGroupUnits with
  | nil => exact .inl ⟨rfl, rfl⟩
  | cons g rest => exact .inr ⟨_, rfl, rfl⟩

theorem loadWeights_cases (n : Network σ) (files : FileTree) :
    (n.weightsReasons files = [] ∧ ∃ later, n.WeightsRead files later ∧ later.weightsLoaded = true ∧
        loadWeights files n = .ok () later) ∨
      ∃ reason, n.weightsReasons files = [reason] ∧ loadWeights files n = .error reason n := by
  unfold loadWeights weightsReasons
  rw [Step.bind_ok (x := get) rfl]
  cases hfile : n.weightsFile with
  | none => exact .inr ⟨_, rfl, rfl⟩
  | some path =>
    cases hloaded : n.weightsLoaded with
    | true => exact .inl ⟨rfl, n, .inl rfl, hloaded, rfl⟩
    | false =>
      cases hread : n.topology.readWeightsFile files path with
      | error e => exact .inr ⟨.weightsFile e, by simp only [hread]; rfl, by simp only [hread]; rfl⟩
      | ok found =>
        refine .inl ⟨by simp only [hread]; rfl, { n with topology := found.2, weightsLoaded := true },
          .inr ⟨hloaded, path, found.1, found.2, hfile, hread, rfl⟩, rfl, ?_⟩
        simp only [hread]
        rw [← hfile]
        rfl

theorem compileExamples_cases (n : Network σ) :
    (n.exampleReasons = [] ∧ ∃ s compiled t, n.exampleSet = some s ∧ s.compile n.topology = .ok (compiled, t) ∧
        compiled.compiledCount ≠ 0 ∧
        compileExamples n = .ok () { n with exampleSet := some compiled, topology := t }) ∨
      ∃ reason later, n.exampleReasons.head? = some reason ∧ n.ExamplesCompiled later ∧
        compileExamples n = .error reason later := by
  unfold compileExamples exampleReasons
  rw [Step.bind_ok (x := get) rfl]
  cases hset : n.exampleSet with
  | none => exact .inr ⟨_, n, rfl, .inl rfl, rfl⟩
  | some s =>
    cases hloaded : s.loaded with
    | false => exact .inr ⟨.examplesNotLoaded, n, by simp [hloaded], .inl rfl, by simp only [hloaded]; rfl⟩
    | true =>
      cases hcompile : s.compile n.topology with
      | error e =>
        exact .inr ⟨.exampleCompile e, n, by simp [hloaded, hcompile, Except.map], .inl rfl,
          by simp only [hloaded, hcompile]; rfl⟩
      | ok found =>
        by_cases hcount : found.1.compiledCount = 0
        · refine .inr ⟨.noExamples, _, by simp [hloaded, hcompile, hcount, Except.map],
            examplesCompiled_of_compile hset hcompile, ?_⟩
          simp only [hloaded, hcompile, hcount]
          rfl
        · refine .inl ⟨by simp [hloaded, hcompile, hcount, Except.map], s, found.1, found.2, rfl, hcompile, hcount, ?_⟩
          simp only [hloaded, hcompile, hcount]
          rfl

/-- The checks pass if nothing speaks against the stage, and fail with the first reason if
anything does. -/
theorem preflight_cases (n : Network σ) (files : FileTree) :
    (n.sizeReasons ++ n.weightsReasons files ++ n.exampleReasons = [] ∧
        ∃ read s compiled t, n.WeightsRead files read ∧ read.weightsLoaded = true ∧ read.exampleSet = some s ∧
          s.compile read.topology = .ok (compiled, t) ∧ compiled.compiledCount ≠ 0 ∧
          preflight files n = .ok () { read with exampleSet := some compiled, topology := t }) ∨
      ∃ reason read later, (n.sizeReasons ++ n.weightsReasons files ++ n.exampleReasons).head? = some reason ∧
        n.WeightsRead files read ∧ read.ExamplesCompiled later ∧ preflight files n = .error reason later := by
  unfold preflight
  obtain ⟨hsizes, hcheck⟩ | ⟨reason, hsizes, hcheck⟩ := checkSizes_cases n
  case inr =>
    exact .inr ⟨reason, n, n, by simp [hsizes], .inl rfl, .inl rfl, Step.bind_error hcheck⟩
  rw [hsizes, List.nil_append, Step.bind_ok hcheck]
  obtain ⟨hweights, read, hread, hloaded, hload⟩ | ⟨reason, hweights, hload⟩ := loadWeights_cases n files
  case inr =>
    exact .inr ⟨reason, n, n, by simp [hweights], .inl rfl, .inl rfl, Step.bind_error hload⟩
  rw [hweights, List.nil_append, Step.bind_ok hload, ← hread.exampleReasons_eq]
  obtain ⟨hexamples, s, compiled, t, hs, hcompile, hcount, h⟩ | ⟨reason, later, hexamples, hlater, h⟩ :=
    compileExamples_cases read
  · exact .inl ⟨hexamples, read, s, compiled, t, hread, hloaded, hs, hcompile, hcount, h⟩
  · exact .inr ⟨reason, read, later, hexamples, hread, hlater, h⟩

/-- The checks leave the service and the graph alone, and do not end the network. -/
theorem kept_of_preflight {files : FileTree} {checked : Network σ} (h : preflight files n = .ok () checked) :
    checked.service = n.service ∧ checked.built = n.built ∧ checked.ended = n.ended := by
  obtain ⟨_, _, _, _, _, hread, _, _, _, _, hpass⟩ | ⟨_, _, _, _, _, _, hfail⟩ := preflight_cases n files
  · cases h.symm.trans hpass
    obtain rfl | ⟨_, _, _, _, _, _, rfl⟩ := hread
    · exact ⟨rfl, rfl, rfl⟩
    · exact ⟨rfl, rfl, rfl⟩
  · cases h.symm.trans hfail

section Stage

variable [PlacementService σ] {files : FileTree} {request : StageRequest}

/-- A network that has ended aborts every stage. -/
theorem runStage_of_ended (hended : n.ended = true) :
    runStage files request n = .ok (.aborted .ended) { n with aborted := true } := by
  unfold runStage
  rw [Step.bind_ok (x := modify _) rfl, Step.bind_ok (x := get) rfl, if_pos hended]
  rfl

/-- Checks that fail abort a stage on what they leave. -/
theorem runStage_of_fails (hended : n.ended = false) {reason : AbortReason}
    (hpre : preflight files { n with aborted := false } = .error reason later) :
    runStage files request n = .ok (.aborted reason) { later with aborted := true } := by
  unfold runStage
  rw [Step.bind_ok (x := modify _) rfl, Step.bind_ok (x := get) rfl, if_neg (by simp [hended]),
    Step.bind_ok (x := get) rfl, hpre]
  rfl

/-- Checks that pass leave the network that the stage is run on. -/
theorem runStage_of_passes (hended : n.ended = false)
    (hpre : preflight files { n with aborted := false } = .ok () later) :
    runStage files request n = runChecked request later := by
  unfold runStage
  rw [Step.bind_ok (x := modify _) rfl, Step.bind_ok (x := get) rfl, if_neg (by simp [hended]),
    Step.bind_ok (x := get) rfl, hpre]
  rfl

end Stage

end Network

end PerceptronMesh

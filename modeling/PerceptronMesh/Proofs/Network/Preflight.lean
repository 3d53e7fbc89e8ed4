import PerceptronMesh.Proofs.Compile.Audit
import PerceptronMesh.Proofs.Network.Checks
import PerceptronMesh.Proofs.Network.Loaded

/-!
The checks before a stage. They read weights and compile examples, whether or not a later
check fails, and leave the invariant and all else of the network as they were. A network that
passes them has a graph to compile and examples to load.
-/

namespace PerceptronMesh

namespace Network

variable {n later : Network Loopback}

/-- What the checks may have changed of a network. -/
structure Checked (n later : Network Loopback) : Prop where
  sound : later.Sound
  changed : ∃ (topology : Topology) (exampleSet : Option ExampleSet) (weightsLoaded : Bool),
    later = { n with topology, exampleSet, weightsLoaded }
  frame_eq : later.topology.frame = n.topology.frame
  examples_eq : later.exampleSet.map (·.examples) = n.exampleSet.map (·.examples)

/-- A network that passed the checks. -/
structure Fit (n : Network Loopback) : Prop where
  sizes : n.topology.oversizedGroups n.limits.maxGroupUnits = []
  weights : n.weightsLoaded = true
  compiled : ∃ examples, n.exampleSet.bind (·.compiled) = some examples
  examples_ne : ∀ {examples : CompiledExamples}, n.exampleSet.bind (·.compiled) = some examples →
    examples.examples ≠ []

theorem Sound.checked (hn : n.Sound) : n.Checked n :=
  ⟨hn, ⟨_, _, _, rfl⟩, rfl, rfl⟩

theorem Checked.trans {last : Network Loopback} (h : n.Checked later) (hrest : later.Checked last) :
    n.Checked last := by
  obtain ⟨_, _, _, hfirst⟩ := h.changed
  obtain ⟨_, _, _, hlast⟩ := hrest.changed
  refine ⟨hrest.sound, ⟨last.topology, last.exampleSet, last.weightsLoaded, ?_⟩,
    hrest.frame_eq.trans h.frame_eq, hrest.examples_eq.trans h.examples_eq⟩
  rw [hlast, hfirst]

namespace Sound

/-- Reading weights keeps the invariant. -/
theorem checked_of_weightsRead (hn : n.Sound) {files : FileTree} (h : n.WeightsRead files later) :
    n.Checked later := by
  obtain rfl | ⟨hunread, _, _, _, _, hread, rfl⟩ := h
  · exact hn.checked
  obtain ⟨values, rfl⟩ := Topology.readWeightsFile_eq_ok hread
  have hframe := n.topology.frame_withWeights values
  refine ⟨⟨hn.topology.of_frame hframe.symm, hn.filled.withWeights hn.topology values, hn.limits,
      hn.running, ?_⟩,
    ⟨_, _, _, rfl⟩, hframe, rfl⟩
  intro hended graph hbuilt
  exact (hn.loaded hended hbuilt).withWeights hunread values

/-- So does compiling examples: those of a loaded graph are compiled already. -/
theorem checked_of_examplesCompiled (hn : n.Sound) (h : n.ExamplesCompiled later) : n.Checked later := by
  obtain rfl | ⟨s, _, _, hs, hnone, hcompile, rfl⟩ := h
  · exact hn.checked
  obtain ⟨_, _, _, hcompiled⟩ | ⟨_, rfl, columns, hcolumns, rfl⟩ := ExampleSet.compile_eq_ok hcompile
  · rw [hnone] at hcompiled
    cases hcompiled
  obtain ⟨hinputs, htargets⟩ := Binding.whole_columns hn.topology hcolumns
  have hframe := n.topology.frame_withValues columns
  refine ⟨⟨hn.topology.of_frame hframe.symm, hn.filled.withValues hn.topology hinputs htargets, hn.limits,
    hn.running, ?_⟩, ⟨_, _, _, rfl⟩, hframe, ?_⟩
  · intro hended graph hbuilt
    obtain ⟨_, hcompiled⟩ := (hn.loaded hended hbuilt).compiled_eq hs
    rw [hnone] at hcompiled
    cases hcompiled
  · rw [hs]
    rfl

end Sound

/-- A set that was compiled holds the records that it counts. -/
theorem exists_compiled_of_compile {s compiled : ExampleSet} {t other : Topology}
    (h : s.compile t = .ok (compiled, other)) (hcount : compiled.compiledCount ≠ 0) :
    ∃ examples, compiled.compiled = some examples ∧ examples.examples ≠ [] := by
  have hexamples : ∃ examples, compiled.compiled = some examples := by
    obtain ⟨rfl, _, hkept⟩ | ⟨_, rfl, _⟩ := ExampleSet.compile_eq_ok h
    · exact hkept
    · exact ⟨_, rfl⟩
  obtain ⟨examples, hexamples⟩ := hexamples
  refine ⟨examples, hexamples, ?_⟩
  intro hempty
  exact hcount (by rw [ExampleSet.compiledCount, hexamples, Option.map_some, hempty]; rfl)

/-- The checks pass, or give a reason; the network that they leave is sound either way. -/
theorem Sound.preflight_cases (hn : n.Sound) (files : FileTree) :
    (∃ later, n.Checked later ∧ later.Fit ∧ preflight files n = .ok () later) ∨
      ∃ reason later, n.Checked later ∧ preflight files n = .error reason later := by
  obtain ⟨hnone, read, s, compiled, t, hread, hloaded, hs, hcompile, hcount, h⟩ |
      ⟨reason, read, later, _, hread, hlater, h⟩ := Network.preflight_cases n files
  · have hfirst := hn.checked_of_weightsRead hread
    have hchecked := hfirst.trans (hfirst.sound.checked_of_examplesCompiled (examplesCompiled_of_compile hs hcompile))
    obtain ⟨examples, hexamples, hne⟩ := exists_compiled_of_compile hcompile hcount
    refine .inl ⟨_, hchecked, ⟨?_, hloaded, ⟨examples, hexamples⟩, ?_⟩, h⟩
    · have hsizes : n.topology.oversizedGroups n.limits.maxGroupUnits = [] := by
        rw [List.append_assoc, List.append_eq_nil_iff] at hnone
        exact List.map_eq_nil_iff.1 hnone.1
      obtain ⟨_, _, _, hchanged⟩ := hchecked.changed
      have hlimits := congrArg Network.limits hchanged
      exact hlimits ▸ Topology.oversizedGroups_of_frame hchecked.frame_eq hsizes
    · intro other hother
      cases hexamples.symm.trans hother
      exact hne
  · have hfirst := hn.checked_of_weightsRead hread
    exact .inr ⟨reason, later, hfirst.trans (hfirst.sound.checked_of_examplesCompiled hlater), h⟩

end Network

end PerceptronMesh

import PerceptronMesh.Proofs.Network.Calls

/-!
Aborted stages. A stage is aborted for the first of the reasons that speak against it, and no
reason that comes later shows. What was loaded on the way stays loaded; the graph, what is marked
on it, the settings and the service are not touched.
-/

namespace PerceptronMesh

namespace Group

/-- The group without the values that examples are bound to. -/
def withoutValues (g : Group) : Group := { g with inputs := #[], targets := #[] }

end Group

theorem Topology.withoutValues_withValues (t : Topology) (columns : Binding.Columns) :
    (t.withValues columns).mapGroups Group.withoutValues = t.mapGroups Group.withoutValues := by
  simp only [withValues, mapGroups, List.map_map]
  rfl

namespace Network

section Loads

variable {σ : Type} {n read later : Network σ} {files : FileTree}

/-- Reading weights looks at no mark that an aborted stage leaves. -/
theorem WeightsRead.withAborted (h : n.WeightsRead files read) (aborted : Bool) :
    { n with aborted }.WeightsRead files { read with aborted } := by
  obtain rfl | ⟨hunread, path, info, topology, hfile, hread, rfl⟩ := h
  · exact .inl rfl
  · exact .inr ⟨hunread, path, info, topology, hfile, hread, rfl⟩

theorem ExamplesCompiled.withAborted (h : n.ExamplesCompiled later) (aborted : Bool) :
    { n with aborted }.ExamplesCompiled { later with aborted } := by
  obtain rfl | ⟨s, compiled, t, hs, hnone, hcompile, rfl⟩ := h
  · exact .inl rfl
  · exact .inr ⟨s, compiled, t, hs, hnone, hcompile, rfl⟩

theorem WeightsRead.changed (h : n.WeightsRead files read) :
    (∃ topology weightsLoaded, read = { n with topology, weightsLoaded }) ∧
      read.topology.mapGroups Group.withoutWeights = n.topology.mapGroups Group.withoutWeights := by
  obtain rfl | ⟨_, _, _, topology, _, hread, rfl⟩ := h
  · exact ⟨⟨_, _, rfl⟩, rfl⟩
  · obtain ⟨values, rfl⟩ := Topology.readWeightsFile_eq_ok hread
    exact ⟨⟨_, _, rfl⟩, Topology.withoutWeights_withWeights values⟩

theorem ExamplesCompiled.changed (h : n.ExamplesCompiled later) :
    (∃ topology exampleSet, later = { n with topology, exampleSet }) ∧
      later.topology.mapGroups Group.withoutValues = n.topology.mapGroups Group.withoutValues ∧
      later.exampleSet.map ExampleSet.invalidate = n.exampleSet.map ExampleSet.invalidate := by
  obtain rfl | ⟨s, compiled, t, hs, hnone, hcompile, rfl⟩ := h
  · exact ⟨⟨_, _, rfl⟩, rfl, rfl⟩
  obtain ⟨_, _, _, hcompiled⟩ | ⟨_, rfl, columns, _, rfl⟩ := ExampleSet.compile_eq_ok hcompile
  · rw [hnone] at hcompiled
    cases hcompiled
  · refine ⟨⟨_, _, rfl⟩, Topology.withoutValues_withValues _ _, ?_⟩
    rw [hs]
    rfl

end Loads

variable {n later : Network Loopback}

/-- Only stages set the mark of an aborted one, or take it away. -/
theorem aborted_afterCall (n : Network Loopback) {call : NetworkCall} (hother : ∀ stage, call ≠ .stage stage) :
    (n.afterCall call).aborted = n.aborted := by
  by_cases hqueue : ∃ results, call = .pushTestResults results
  · obtain ⟨results, rfl⟩ := hqueue
    rfl
  · exact (n.keepsRuns_afterCall hother fun results h => hqueue ⟨results, h⟩).aborted_eq

theorem aborted_afterCalls (n : Network Loopback) {calls : List NetworkCall} (hother : ∀ stage, .stage stage ∉ calls) :
    (n.afterCalls calls).aborted = n.aborted := by
  induction calls generalizing n with
  | nil => rfl
  | cons call rest ih =>
    have hfirst : (n.afterCall call).aborted = n.aborted :=
      aborted_afterCall n fun stage hstage => hother stage (hstage ▸ List.mem_cons_self)
    exact (ih (n.afterCall call) fun stage hmem => hother stage (List.mem_cons_of_mem _ hmem)).trans hfirst

/-- A stage that passed the checks is completed or fails. -/
theorem runChecked_ne_aborted (request : StageRequest) (n later : Network Loopback) (reason : AbortReason) :
    runChecked request n ≠ .ok (.aborted reason) later := by
  intro h
  unfold runChecked at h
  obtain ⟨_, _, _, h⟩ := Step.bind_eq_ok_iff.1 h
  obtain ⟨_, _, _, h⟩ := Step.bind_eq_ok_iff.1 h
  obtain ⟨_, _, _, h⟩ := Step.bind_eq_ok_iff.1 h
  obtain ⟨_, _, _, h⟩ := Step.bind_eq_ok_iff.1 h
  obtain ⟨_, _, _, h⟩ := Step.bind_eq_ok_iff.1 h
  cases h

/-- An aborted stage gives the first reason that speaks against it. It leaves weights that were
read and examples that were compiled, which change a topology in its weights and its values alone,
and the mark that it was aborted, which lasts until the next stage; all else is as it was, the
service included. -/
theorem aborted_spec {call : StageCall} {reason : AbortReason}
    (h : call.run n = .ok (.aborted reason) later) :
    (n.abortReasons call.files).head? = some reason ∧
      (∃ topology exampleSet weightsLoaded,
        later = { n with topology, exampleSet, weightsLoaded, aborted := true }) ∧
      (∃ read, { n with aborted := true }.WeightsRead call.files read ∧ read.ExamplesCompiled later ∧
        read.topology.mapGroups Group.withoutWeights = n.topology.mapGroups Group.withoutWeights ∧
        later.topology.mapGroups Group.withoutValues = read.topology.mapGroups Group.withoutValues ∧
        later.exampleSet.map ExampleSet.invalidate = n.exampleSet.map ExampleSet.invalidate) ∧
      ∀ calls, (∀ stage, .stage stage ∉ calls) → (later.afterCalls calls).aborted = true := by
  rw [call.run_eq] at h
  have hlasts (haborted : later.aborted = true) (calls : List NetworkCall) (hother : ∀ stage, .stage stage ∉ calls) :
      (later.afterCalls calls).aborted = true := (aborted_afterCalls later hother).trans haborted
  obtain ⟨_, hended, hrun⟩ | ⟨_, checked, _, hended, hpre, hrun⟩ | ⟨_, _, _, hrun⟩ :=
    runStage_cases n call.files (call.request n.settings)
  · cases h.symm.trans hrun
    refine ⟨?_, ⟨_, _, _, rfl⟩, ⟨_, .inl rfl, .inl rfl, rfl, rfl, rfl⟩, hlasts rfl⟩
    rw [abortReasons, if_pos hended]
    rfl
  · cases h.symm.trans hrun
    obtain ⟨_, _, _, _, _, _, _, _, _, _, hpass⟩ | ⟨_, read, _, hreason, hread, hlater, hfail⟩ :=
      preflight_cases { n with aborted := false } call.files
    · cases hpre.symm.trans hpass
    cases hpre.symm.trans hfail
    have hread := hread.withAborted true
    have hlater := hlater.withAborted true
    obtain ⟨⟨topology, weightsLoaded, hfirst⟩, hweights⟩ := hread.changed
    obtain ⟨⟨_, exampleSet, hlast⟩, hvalues, hset⟩ := hlater.changed
    refine ⟨?_, ?_, ⟨_, hread, hlater, hweights, hvalues, ?_⟩, hlasts rfl⟩
    · rw [abortReasons, hended]
      exact hreason
    · rw [hlast, hfirst]
      exact ⟨_, _, _, rfl⟩
    · rw [hset, hfirst]
  · exact absurd (hrun.symm.trans h) (runChecked_ne_aborted _ _ _ _)

/-- Weights to read, and a set that no examples were read into. -/
def unloadedCalls : List NetworkCall :=
  [.setWeightsFile ⟨"weights"⟩, .attachExampleSet { label := "none" }]

/-- A stage that finds no examples loaded leaves the service as it was. -/
theorem aborted_spec_unloaded : ∃ n, Network.make {} {} ({ keySpace := 65536 } : Loopback) = .ok n ∧
    ∃ later, (StageCall.train noLinkFiles none none).run (n.afterCalls unloadedCalls) =
        .ok (.aborted .examplesNotLoaded) later ∧
      later.built = none ∧ later.service = (n.afterCalls unloadedCalls).service ∧ later.aborted = true := by
  obtain ⟨n, hmake, hfails, hfirst⟩ : ∃ n, Network.make {} {} ({ keySpace := 65536 } : Loopback) = .ok n ∧
      ¬(n.afterCalls unloadedCalls).Passes noLinkFiles ∧
      ((n.afterCalls unloadedCalls).abortReasons noLinkFiles).head? = some .examplesNotLoaded :=
    ⟨_, rfl, by decide +kernel, by decide +kernel⟩
  have hn : (n.afterCalls unloadedCalls).Reachable := Reachable.afterCalls (.make hmake) unloadedCalls
  obtain ⟨_, reason, later, h, _⟩ | ⟨hpasses, _⟩ | ⟨hpasses, _⟩ :=
    hn.sound.stage_cases (.train noLinkFiles none none)
  · obtain ⟨hreason, ⟨_, _, _, hlater⟩, _, hlasts⟩ := aborted_spec h
    cases hfirst.symm.trans hreason
    refine ⟨n, hmake, later, h, ?_, ?_, hlasts [] fun _ hmem => nomatch hmem⟩
    · rw [hlater]
      rfl
    · rw [hlater]
  · exact absurd hpasses hfails
  · exact absurd hpasses hfails

end Network

end PerceptronMesh

import PerceptronMesh.Proofs.Network.Attached

/-!
What a network is bound to. A compilation is kept inside the set and its values inside the
topology; the two stay together under every call but one, the attachment of a set that was
compiled elsewhere. Without such sets a stage that is completed ran on the values of the attached
examples; with one it may have run on none.
-/

namespace PerceptronMesh

open Numeric

namespace ExampleSet

/-- A topology holds the values that the events of a set bind to it. -/
def BoundIn (s : ExampleSet) (t : Topology) : Prop :=
  ∃ columns, Binding.columns t s.header.defaults s.events = .ok columns ∧ t.Holds columns

variable {s other compiled : ExampleSet} {t later : Topology}

theorem BoundIn.of_invalidate (h : s.BoundIn t) (hsame : other.invalidate = s.invalidate) :
    other.BoundIn t := by
  obtain ⟨columns, hcolumns, hholds⟩ := h
  have hheader : other.header = s.header := (congrArg ExampleSet.header hsame :)
  have hexamples : other.examples = s.examples := (congrArg ExampleSet.examples hsame :)
  refine ⟨columns, ?_, hholds⟩
  rw [events, hheader, hexamples]
  exact hcolumns

theorem BoundIn.of_withoutLearning (h : s.BoundIn t)
    (hsame : later.mapGroups Group.withoutLearning = t.mapGroups Group.withoutLearning) : s.BoundIn later := by
  obtain ⟨columns, hcolumns, hholds⟩ := h
  refine ⟨columns, ?_, hholds.of_withoutLearning hsame⟩
  rw [Binding.columns_of_frame (Topology.frame_of_withoutLearning hsame)]
  exact hcolumns

/-- A set that is compiled in a topology is bound to it. -/
theorem boundIn_of_compile (ht : t.Sound) (hnone : s.compiled = none)
    (h : s.compile t = .ok (compiled, later)) : compiled.BoundIn later := by
  obtain ⟨_, _, _, hcompiled⟩ | ⟨_, rfl, columns, hcolumns, rfl⟩ := compile_eq_ok h
  · rw [hnone] at hcompiled
    cases hcompiled
  · obtain ⟨hinputs, htargets⟩ := Binding.sized_columns ht hcolumns
    refine ⟨columns, ?_, ht.holds_withValues hinputs htargets⟩
    rw [Binding.columns_of_frame (t.frame_withValues columns)]
    exact hcolumns

end ExampleSet

namespace Network

variable {n : Network Loopback}

/-- Being bound to the topology lasts as long as the set counts as compiled. -/
theorem lasting_boundIn : Lasting fun t s => s.BoundIn t where
  of_compile := ExampleSet.boundIn_of_compile
  of_same h hsame := h.of_withoutLearning hsame

/-- A stage that is completed ran on the values that the attached examples bind to the topology,
one row for each event in every input and output group, as long as no set was attached that was
compiled already. -/
theorem completed_bound {settings : Settings} {configuration : Configuration} {keySpace : Nat}
    (hmake : Network.make settings configuration ({ keySpace } : Loopback) = .ok n) {calls : List NetworkCall}
    (hnew : ∀ s, .attachExampleSet s ∈ calls → s.compiled = none) {call : StageCall} {report : StageReport}
    {later : Network Loopback} (h : call.run (n.afterCalls calls) = .ok (.completed report) later) :
    ∃ s columns, (n.afterCalls calls).exampleSet = some s ∧
      Binding.columns later.topology s.header.defaults s.events = .ok columns ∧ later.topology.Holds columns ∧
      (∀ g ∈ later.topology.inputGroups, g.inputs.size = s.events.length * g.units) ∧
      ∀ g ∈ later.topology.outputGroups, g.targets.size = s.events.length * g.units := by
  have hbefore : Attached (fun t s => s.BoundIn t) (n.afterCalls calls) :=
    (Attached.of_make hmake).afterCalls lasting_boundIn fun s hs hcompiled => absurd (hnew s hs) hcompiled
  have hsound := (Reachable.make hmake).afterCalls calls |>.sound
  obtain ⟨held, hheld, hcompiled⟩ := hsound.compiled_of_completed h
  obtain ⟨hbound, s, hs, hsame⟩ := hbefore.exists_attached lasting_boundIn h hheld
  obtain ⟨columns, hcolumns, hholds⟩ := (hbound.held hheld hcompiled).of_invalidate hsame
  have hsizes := Binding.sized_columns hbound.topology hcolumns
  rw [← hholds.inputs, ← hholds.targets] at hsizes
  exact ⟨s, columns, hs, hcolumns, hholds, hsizes.1.of_map, hsizes.2.of_map⟩

/-- Three events of two examples give the output group their targets, in the order of the examples. -/
theorem completed_bound_two_examples : ∃ n, Network.make {} {} ({ keySpace := 65536 } : Loopback) = .ok n ∧
    (∀ s, .attachExampleSet s ∈ outputCalls twoExamples → s.compiled = none) ∧
    ∃ report later,
      (StageCall.train outputFiles none none).run (n.afterCalls (outputCalls twoExamples)) =
        .ok (.completed report) later ∧
      later.topology.inputGroups = [] ∧
      later.topology.outputGroups.map (·.targets) =
        [#[some (.ofRatio false 1 2), some (.ofNat 1), some (.zero false)]] ∧
      ∀ g ∈ later.topology.outputGroups, g.targets.size = 3 * g.units := by
  obtain ⟨n, columns, hmake, hpasses, hkeys, hinputs, hcolumns, hvalues⟩ : ∃ n columns,
      Network.make {} {} ({ keySpace := 65536 } : Loopback) = .ok n ∧
      (n.afterCalls (outputCalls twoExamples)).Passes outputFiles ∧
      ¬(n.afterCalls (outputCalls twoExamples)).LacksKeys ∧
      ((n.afterCalls (outputCalls twoExamples)).afterChecks (.train outputFiles none none)).topology.inputGroups = [] ∧
      Binding.columns ((n.afterCalls (outputCalls twoExamples)).afterChecks (.train outputFiles none none)).topology
        twoExamples.header.defaults twoExamples.events = .ok columns ∧
      columns.targets = [#[some (.ofRatio false 1 2), some (.ofNat 1), some (.zero false)]] :=
    ⟨_, _, rfl, by decide +kernel, by decide +kernel, rfl, rfl, by decide +kernel⟩
  have hnew : ∀ s, .attachExampleSet s ∈ outputCalls twoExamples → s.compiled = none := by
    intro s hs
    rw [eq_of_mem_outputCalls hs]
    rfl
  have hsound := ((Reachable.make hmake).afterCalls (outputCalls twoExamples)).sound
  obtain ⟨report, later, h⟩ := hsound.exists_completed (.train outputFiles none none) hpasses hkeys
  obtain ⟨_, htopology, _⟩ := inputs_of_completed h
  rw [← htopology] at hinputs hcolumns
  obtain ⟨s, _, hs, hbound, hholds, _, htargets⟩ := completed_bound hmake hnew h
  have hset : (n.afterCalls (outputCalls twoExamples)).exampleSet = some twoExamples := rfl
  cases hset.symm.trans hs
  cases hcolumns.symm.trans hbound
  exact ⟨n, hmake, hnew, report, later, h, hinputs, hholds.targets.trans hvalues, htargets⟩

/-- The set of one event after a compilation for the bias group alone. -/
def precompiled : ExampleSet := { oneEvent with compiled := some (.ofExamples {} oneEvent.examples) }

/-- A set that was compiled for another topology gives the output group no target at all. -/
theorem completed_unbound_precompiled : ∃ n t, Network.make {} {} ({ keySpace := 65536 } : Loopback) = .ok n ∧
    Topology.make 32 = .ok t ∧ oneEvent.compile t = .ok (precompiled, t) ∧
    ∃ report later,
      (StageCall.train outputFiles none none).run (n.afterCalls (outputCalls precompiled)) =
        .ok (.completed report) later ∧
      ∃ g ∈ later.topology.outputGroups, g.targets.size ≠ precompiled.events.length * g.units := by
  obtain ⟨n, hmake, hpasses, hkeys, hchecked⟩ : ∃ n,
      Network.make {} {} ({ keySpace := 65536 } : Loopback) = .ok n ∧
      (n.afterCalls (outputCalls precompiled)).Passes outputFiles ∧
      ¬(n.afterCalls (outputCalls precompiled)).LacksKeys ∧
      ∃ g ∈ ((n.afterCalls (outputCalls precompiled)).afterChecks (.train outputFiles none none)).topology.outputGroups,
        g.targets.size ≠ precompiled.events.length * g.units :=
    ⟨_, rfl, by decide +kernel, by decide +kernel, by decide +kernel⟩
  have hsound := ((Reachable.make hmake).afterCalls (outputCalls precompiled)).sound
  obtain ⟨report, later, h⟩ := hsound.exists_completed (.train outputFiles none none) hpasses hkeys
  obtain ⟨_, htopology, _⟩ := inputs_of_completed h
  rw [← htopology] at hchecked
  exact ⟨n, _, hmake, rfl, rfl, report, later, h, hchecked⟩

end Network

end PerceptronMesh

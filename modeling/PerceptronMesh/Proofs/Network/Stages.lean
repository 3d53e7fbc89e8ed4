import PerceptronMesh.Proofs.Network.Prepare

/-!
Stages of a network over a loopback. A stage is aborted, or runs to its end on units that hold
what is built for it, or wants for routing keys; the invariant holds after it in every case.
-/

namespace PerceptronMesh

namespace Network

variable {n later : Network Loopback} {graph : BuiltGraph} {stage : StageDescriptor}

/-- The service holds the payloads of a full build for a stage, made from the network as it
stands, for the units of its graph. -/
def Rebuilt (n : Network Loopback) (stage : StageDescriptor) : Prop :=
  ∃ (graph : BuiltGraph) (s : PayloadSource), n.built = some graph ∧
    compile n.topology n.limits = .ok graph.compiled ∧
    n.payloadSource graph.compiled graph.routing = .ok s ∧
    s.buildAll stage = .ok n.service.payloads ∧
    n.service.payloads.map (·.unit) = graph.compiled.graph.units.toList.map (·.id) ∧
    ∀ u ∈ graph.compiled.graph.units, ∃ p, n.service.payload? u.id = some p ∧ s.build u stage = .ok p

/-- What a stage recorded: what the units that were made ready for it record, which are the units
that it leaves. -/
structure Recorded (n : Network Loopback) (stage : StageDescriptor) (report : StageReport)
    (later : Network Loopback) : Prop where
  ready : ∃ graph service, later.built = some graph ∧ n.Prepared service graph ∧
    service.KeepsUnits later.service ∧ service.Records stage report.outputs later.service.cursor
  limits_eq : later.limits = n.limits
  examples_ne : ∀ {examples : CompiledExamples}, later.exampleSet.bind (·.compiled) = some examples →
    examples.examples ≠ []

namespace Ready

variable (h : n.Ready graph stage)
include h

/-- Running a stage leaves its payloads where they are. -/
theorem afterRun {service : Loopback} (hkeeps : n.service.KeepsUnits service) (other : BuiltGraph)
    (hcompiled : other.compiled = graph.compiled) (hrouting : other.routing = graph.routing)
    (stageId : UInt32) :
    { n with service, built := some other, stageId }.Ready other stage := by
  obtain ⟨examples, payload, hexamples, hpayloads, hbuild⟩ := h.payloads
  rw [← hcompiled, ← hrouting] at hbuild
  refine ⟨rfl, hkeeps.stopped_eq.trans h.running, hcompiled ▸ h.compile_eq, ?_, examples, payload, hexamples,
    ?_, hbuild⟩
  · rw [hrouting, hcompiled]
    exact h.routed
  · rw [hcompiled]
    exact hkeeps.payloads_eq.trans hpayloads

theorem loaded (hread : n.weightsLoaded = true) : n.Loaded graph := by
  obtain ⟨examples, payload, hexamples, hpayloads, hbuild⟩ := h.payloads
  refine ⟨h.compile_eq, h.routed, .inl hread, examples, payload, hexamples, hpayloads, ?_⟩
  intro u hu
  exact PayloadSource.held_of_build (hbuild u hu)

variable (ht : n.topology.Sound) (hfilled : n.topology.Filled)
include ht hfilled

theorem sound (hlimits : n.limits.validate = .ok ()) (hread : n.weightsLoaded = true) : n.Sound := by
  refine ⟨ht, hfilled, hlimits, fun _ => h.running, ?_⟩
  intro _ other hother
  cases h.built_eq.symm.trans hother
  exact h.loaded hread

theorem rebuilt : n.Rebuilt stage := by
  obtain ⟨examples, payload, hexamples, hpayloads, hbuild⟩ := h.payloads
  have hs := source_sound ht hfilled h.compile_eq h.routed examples
  have hids : (graph.compiled.graph.units.toList.map (·.id)).Nodup := hs.nodup_ids
  have hunits : ∀ u ∈ graph.compiled.graph.units.toList, (payload u).unit = u.id :=
    fun u hu => PayloadSource.unit_of_build (hbuild u hu)
  refine ⟨graph, _, h.built_eq, h.compile_eq, payloadSource_eq hexamples _ _, ?_, ?_, ?_⟩
  · rw [hpayloads]
    exact mapM_eq_ok hbuild
  · rw [hpayloads]
    exact PayloadSource.map_unit_of_build hbuild
  · intro u hu
    have hmem := Array.mem_toList_iff.2 hu
    exact ⟨payload u, Loopback.payload?_of_units hids hunits hpayloads hmem, hbuild u hmem⟩

/-- The service runs a stage that the units are ready for. -/
theorem run_ok : ∃ report later, Loopback.run stage n.service = .ok report later ∧
    n.service.KeepsUnits later ∧ later.runs = n.service.runs.push stage ∧
    n.service.Records stage report.outputs later.cursor := by
  obtain ⟨examples, payload, _, hpayloads, hbuild⟩ := h.payloads
  have hunit {p : UnitPayload} (hp : p ∈ n.service.payloads) :
      ∃ u, (n.source graph.compiled graph.routing examples).build u stage = .ok p := by
    rw [hpayloads] at hp
    obtain ⟨u, hu, rfl⟩ := List.mem_map.1 hp
    exact ⟨u, hbuild u hu⟩
  have hcore : ∀ p ∈ n.service.payloads, ∃ core, p.region? .core = some core ∧ SumCore.size ≤ core.length := by
    intro p hp
    obtain ⟨u, hu⟩ := hunit hp
    exact PayloadSource.exists_core_of_build hu
  obtain ⟨writers, hwriters⟩ := Loopback.exists_writers hcore
  refine Loopback.run_ok h.running stage ?_ ?_ hwriters
  · obtain ⟨u, hu⟩ := (source_sound ht hfilled h.compile_eq h.routed examples).exists_unit
    rw [hpayloads]
    exact List.ne_nil_of_mem (List.mem_map_of_mem hu)
  · intro p hp
    obtain ⟨u, hu⟩ := hunit hp
    exact PayloadSource.stage_of_build hu

end Ready

namespace Sound

/-- A stage that passed the checks ends with units as a full build makes them, unless there are
too few keys for their graph. -/
theorem runChecked_cases (hn : n.Sound) (hended : n.ended = false) (hfit : n.Fit) (request : StageRequest) :
    (¬n.LacksKeys ∧ ∃ report later, runChecked request n = .ok (.completed report) later ∧ later.Sound ∧
        later.Rebuilt (n.descriptor request) ∧
        later.service.runs = n.service.runs.push (n.descriptor request) ∧
        n.Recorded (n.descriptor request) report later) ∨
      (n.LacksKeys ∧ ∃ name, runChecked request n = .error (.placement (.keysExhausted name)) n) := by
  unfold runChecked
  rw [Step.bind_ok (x := get) rfl]
  obtain ⟨hkeys, service, graph, hprepare, hready, hprepared⟩ | ⟨hlacks, name, hfault⟩ :=
    hn.prepareGraph_cases hended hfit (n.descriptor request)
  · obtain ⟨report, last, hrun, hkeeps, hlast, hrecords⟩ := hready.run_ok hn.topology hn.filled
    have hstage : onService (PlacementService.run (n.descriptor request))
        { n with service, built := some graph } =
          .ok report { n with service := last, built := some graph } := Step.onPart_ok hrun
    have hend := hready.afterRun hkeeps { graph with lastOutputs := report.outputs } rfl rfl (n.stageId + 1)
    refine .inl ⟨hkeys, report, _, ?_, hend.sound hn.topology hn.filled hn.limits hfit.weights,
      hend.rebuilt hn.topology hn.filled, hlast.trans (by rw [hprepared.runs_eq]),
      ⟨⟨_, service, rfl, ⟨hprepared.runs_eq, hprepared.fresh, hprepared.recording⟩, hkeeps, hrecords⟩, rfl,
        hfit.examples_ne⟩⟩
    rw [Step.bind_ok hprepare, Step.bind_ok hstage]
    rfl
  · exact .inr ⟨hlacks, name, by rw [Step.bind_error hfault]⟩

end Sound

end Network

end PerceptronMesh

import PerceptronMesh.Proofs.Network.Frames
import PerceptronMesh.Proofs.Network.Refresh

/-!
The graph of a stage that passed the checks. It is kept and brought up to date, or built anew;
building it fails exactly if its partitions need more keys than there are.
-/

namespace PerceptronMesh

open Numeric

namespace Network

variable {n : Network Loopback} {graph : BuiltGraph} {stage : StageDescriptor}

/-- The next stage has to build a graph whose last routing key would not fit a word. -/
def LacksKeys (n : Network Loopback) : Prop :=
  n.built = none ∧ ∃ compiled, compile n.topology n.limits = .ok compiled ∧
    maxWord32 < compiled.graph.partitions.length * n.service.keySpace

instance (n : Network Loopback) : Decidable n.LacksKeys :=
  match h : compile n.topology n.limits with
  | .error _ => .isFalse <| by
    rintro ⟨_, compiled, hcompile, _⟩
    cases h.symm.trans hcompile
  | .ok compiled =>
    decidable_of_iff (n.built = none ∧ maxWord32 < compiled.graph.partitions.length * n.service.keySpace) <| by
      constructor
      · rintro ⟨hbuilt, hexceeds⟩
        exact ⟨hbuilt, compiled, h, hexceeds⟩
      · rintro ⟨hbuilt, other, hcompile, hexceeds⟩
        cases h.symm.trans hcompile
        exact ⟨hbuilt, hexceeds⟩

/-- A network that passed the checks compiles. -/
theorem Fit.exists_compiled (hfit : n.Fit) (hn : n.Sound) :
    ∃ compiled, compile n.topology n.limits = .ok compiled := by
  obtain ⟨_, hinvalid | ⟨g, hg, hlarge⟩⟩ | ⟨hok, _⟩ := hn.topology.compile_cases n.limits
  · exact absurd hn.limits hinvalid
  · have hmem : g ∈ n.topology.oversizedGroups n.limits.maxGroupUnits :=
      List.mem_filter.2 ⟨hg, by simpa using hlarge⟩
    rw [hfit.sizes] at hmem
    cases hmem
  · exact hok

theorem withPayloads_self (hbuilt : n.built = some graph) :
    n.withPayloads n.service.payloads n.service.updates graph = n := by
  rw [withPayloads, ← hbuilt]

/-- What making the units ready for a stage does to marks and recordings. No mark is left. A graph
that is placed begins anew, with its Threshold units; one that is kept goes on where it was. -/
structure Prepared (n : Network Loopback) (service : Loopback) (graph : BuiltGraph) : Prop where
  runs_eq : service.runs = n.service.runs
  fresh : graph.weightsStale = false ∧ graph.coresStale = false
  recording : (n.built = none ∧ service.thresholds = graph.compiled.graph.unitsWithRole .threshold ∧
      service.cursor = 0) ∨
    ∃ old, n.built = some old ∧ graph.compiled = old.compiled ∧ service.thresholds = n.service.thresholds ∧
      service.cursor = n.service.cursor

namespace Sound

variable (hn : n.Sound) (hended : n.ended = false) (hfit : n.Fit)
include hn hended hfit

/-- Without a graph a new one is built. -/
theorem buildGraph_cases (hbuilt : n.built = none) (stage : StageDescriptor) :
    (¬n.LacksKeys ∧ ∃ service graph, buildGraph stage n = .ok () { n with service, built := some graph } ∧
        { n with service, built := some graph }.Ready graph stage ∧ n.Prepared service graph) ∨
      (n.LacksKeys ∧ ∃ name, buildGraph stage n = .error (.placement (.keysExhausted name)) n) := by
  obtain ⟨compiled, hcompile⟩ := hfit.exists_compiled hn
  obtain ⟨examples, hexamples⟩ := hfit.compiled
  unfold buildGraph
  rw [Step.bind_ok (x := get) rfl, Step.bind_ok (Step.ofResult_ok hcompile)]
  obtain ⟨hfits, table, hcovers, hplace⟩ | ⟨hexceeds, name, hfault⟩ :=
    Loopback.place_cases (hn.running hended) compiled.graph
  · have hsource := payloadSource_eq hexamples compiled table
    have hs := source_sound hn.topology hn.filled hcompile hcovers examples
    obtain ⟨payload, hbuild, hall⟩ := hs.exists_buildAll stage
    have hbuildAll : (n.source compiled table examples).buildAll stage =
      .ok (compiled.graph.units.toList.map payload) := hall
    have hunits : ((compiled.graph.units.toList.map payload).map (·.unit)).Nodup := by
      have hsame : (compiled.graph.units.toList.map payload).map (·.unit) =
          compiled.graph.units.toList.map (·.id) := PayloadSource.map_unit_of_build hbuild
      rw [hsame]
      exact hs.nodup_ids
    refine .inl ⟨?_, ?_⟩
    · rintro ⟨_, other, hother, hexceeds⟩
      cases hcompile.symm.trans hother
      exact absurd hexceeds (Nat.not_lt.2 hfits)
    · have hplaced : onService (PlacementService.place compiled.graph) n =
          .ok table { n with service := n.service.placed compiled.graph table } := Step.onPart_ok hplace
      have hload := Loopback.load_ok (s := n.service.placed compiled.graph table) (hn.running hended) rfl
        hunits
      have hloaded : onService (PlacementService.load (compiled.graph.units.toList.map payload))
            { n with service := n.service.placed compiled.graph table } =
          .ok () { n with service := { n.service.placed compiled.graph table with
            payloads := compiled.graph.units.toList.map payload } } := Step.onPart_ok hload
      refine ⟨{ n.service.placed compiled.graph table with
          payloads := compiled.graph.units.toList.map payload }, { compiled, routing := table }, ?_,
        ⟨rfl, hn.running hended, hcompile, hcovers, examples, payload, hexamples, rfl, hbuild⟩,
        rfl, ⟨rfl, rfl⟩, .inl ⟨hbuilt, rfl, rfl⟩⟩
      rw [Step.bind_ok hplaced, Step.bind_ok (Step.ofResult_ok hsource),
        Step.bind_ok (Step.ofResult_ok hbuildAll), Step.bind_ok hloaded]
      rfl
  · have hrefused : onService (PlacementService.place compiled.graph) n =
        .error (.placement (.keysExhausted name)) n := Step.onPart_error hfault
    exact .inr ⟨⟨hbuilt, compiled, hcompile, hexceeds⟩, name, by rw [Step.bind_error hrefused]⟩

/-- A graph that is kept is brought up to date. -/
theorem refresh_ok (hbuilt : n.built = some graph) (stage : StageDescriptor) :
    ∃ payloads updates fresh, prepareGraph stage n = .ok () (n.withPayloads payloads updates fresh) ∧
      (n.withPayloads payloads updates fresh).Ready fresh stage ∧
      fresh = { graph with weightsStale := false, coresStale := false } := by
  rw [prepareGraph_of_built hbuilt]
  have hweights : ∃ payloads updates, (if graph.weightsStale then pushWeights graph else pure ()) n =
        .ok () (n.withPayloads payloads updates { graph with weightsStale := false }) ∧
      (n.withPayloads payloads updates { graph with weightsStale := false }).Sound := by
    by_cases hstale : graph.weightsStale = true
    · rw [if_pos hstale]
      exact hn.pushWeights_ok hended hfit.weights hbuilt
    · have hsame : { graph with weightsStale := false } = graph := by rw [← Bool.eq_false_iff.2 hstale]
      rw [if_neg hstale, hsame]
      refine ⟨n.service.payloads, n.service.updates, ?_⟩
      rw [withPayloads_self hbuilt]
      exact ⟨rfl, hn⟩
  obtain ⟨payloads, updates, hpushed, hsound⟩ := hweights
  have hcores : ∃ later last, (if graph.coresStale then pushCores graph else pure ())
        (n.withPayloads payloads updates { graph with weightsStale := false }) =
          .ok () (n.withPayloads later last { graph with weightsStale := false, coresStale := false }) ∧
      (n.withPayloads later last { graph with weightsStale := false, coresStale := false }).Sound := by
    by_cases hstale : graph.coresStale = true
    · rw [if_pos hstale]
      exact hsound.pushCores_ok hended hfit.weights rfl
    · have hsame : { graph with weightsStale := false, coresStale := false } =
          { graph with weightsStale := false } := by rw [← Bool.eq_false_iff.2 hstale]
      rw [if_neg hstale, hsame]
      exact ⟨payloads, updates, rfl, hsound⟩
  obtain ⟨later, last, hwritten, hfresh⟩ := hcores
  obtain ⟨payloads, updates, hstage, hready⟩ := hfresh.pushStage_ok hended rfl rfl rfl stage
  refine ⟨payloads, updates, _, ?_, hready, rfl⟩
  rw [Step.bind_ok hpushed, Step.bind_ok hwritten]
  exact hstage

/-- Every stage that passed the checks finds its units ready, if there are keys enough. -/
theorem prepareGraph_cases (stage : StageDescriptor) :
    (¬n.LacksKeys ∧ ∃ service graph, prepareGraph stage n = .ok () { n with service, built := some graph } ∧
        { n with service, built := some graph }.Ready graph stage ∧ n.Prepared service graph) ∨
      (n.LacksKeys ∧ ∃ name, prepareGraph stage n = .error (.placement (.keysExhausted name)) n) := by
  cases hbuilt : n.built with
  | none =>
    rw [prepareGraph_of_not_built hbuilt]
    exact hn.buildGraph_cases hended hfit hbuilt stage
  | some graph =>
    obtain ⟨payloads, updates, fresh, hprepare, hready, hsame⟩ := hn.refresh_ok hended hfit hbuilt stage
    refine .inl ⟨?_, _, fresh, hprepare, hready, rfl, hsame ▸ ⟨rfl, rfl⟩, .inr ⟨graph, hbuilt, hsame ▸ rfl, rfl, rfl⟩⟩
    rintro ⟨hnone, _⟩
    rw [hbuilt] at hnone
    cases hnone

end Sound

end Network

end PerceptronMesh

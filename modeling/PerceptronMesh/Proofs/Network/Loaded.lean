import PerceptronMesh.Network.Stage
import PerceptronMesh.Proofs.Payload.Held
import PerceptronMesh.Proofs.Placement.Routing
import PerceptronMesh.Proofs.Placement.Step
import PerceptronMesh.Proofs.Topology.Filled

/-!
The invariant of a network over a loopback. A graph that is kept is still the one that the
topology compiles to, and its units hold payloads of which only the regions that are marked
may be stale. Every call that configures a network keeps the invariant: it changes nothing
that a region depends on without marking that region or dropping the graph.
-/

namespace PerceptronMesh

namespace Network

/-- What payloads of a graph are made from, with the compiled examples at hand. -/
def source {σ : Type} (n : Network σ) (compiled : CompiledGraph) (routing : RoutingTable)
    (examples : CompiledExamples) : PayloadSource :=
  { topology := n.topology, settings := n.settings, recording := n.recording
    compiled, routing, examples }

theorem payloadSource_eq {σ : Type} {n : Network σ} {examples : CompiledExamples}
    (h : n.exampleSet.bind (·.compiled) = some examples) (compiled : CompiledGraph) (routing : RoutingTable) :
    n.payloadSource compiled routing = .ok (n.source compiled routing examples) := by
  unfold payloadSource
  rw [h]
  rfl

/-- A graph whose units are loaded, if with regions that are marked as stale. -/
structure Loaded (n : Network Loopback) (graph : BuiltGraph) : Prop where
  compile_eq : compile n.topology n.limits = .ok graph.compiled
  routed : graph.routing.Covers graph.compiled.graph
  weights_read : n.weightsLoaded = true ∨ graph.weightsStale = true
  held : ∃ (examples : CompiledExamples) (payload : MeshUnit → UnitPayload),
    n.exampleSet.bind (·.compiled) = some examples ∧
    n.service.payloads = graph.compiled.graph.units.toList.map payload ∧
    ∀ u ∈ graph.compiled.graph.units.toList,
      (n.source graph.compiled graph.routing examples).Held graph.weightsStale graph.coresStale u (payload u)

/-- The invariant. A network that has ended runs no more stages, so that nothing is promised of
a graph it kept. -/
structure Sound (n : Network Loopback) : Prop where
  topology : n.topology.Sound
  filled : n.topology.Filled
  limits : n.limits.validate = .ok ()
  running : n.ended = false → n.service.stopped = false
  loaded : n.ended = false → ∀ {graph : BuiltGraph}, n.built = some graph → n.Loaded graph

section Calls

variable {σ : Type} {n later : Network σ}

theorem ended_eq_of_ensureNotEnded (h : n.ensureNotEnded = .ok ()) : n.ended = false := by
  unfold ensureNotEnded at h
  cases hended : n.ended with
  | false => rfl
  | true =>
    rw [hended] at h
    cases h

theorem addGroup_eq_ok {units : Nat} {roles : Roles} {inputFunctions : Option (List InputFunction)}
    {outputFunctions : Option (List OutputFunction)} {label : Option String} {id : GroupId}
    (h : n.addGroup units roles inputFunctions outputFunctions label = .ok (id, later)) :
    ∃ grown, n.topology.addGroup units roles inputFunctions outputFunctions label = .ok (id, grown) ∧
      later = n.changeTopology grown := by
  unfold Network.addGroup at h
  obtain ⟨_, _, h⟩ := bind_eq_ok_iff.1 h
  obtain ⟨⟨_, grown⟩, hadd, h⟩ := bind_eq_ok_iff.1 h
  cases h
  exact ⟨grown, hadd, rfl⟩

theorem addLink_eq_ok {source destination : GroupId} {label : Option String} {id : Nat}
    (h : n.addLink source destination label = .ok (id, later)) :
    ∃ linked, n.topology.addLink source destination label = .ok (id, linked) ∧
      later = n.changeTopology linked := by
  unfold Network.addLink at h
  obtain ⟨_, _, h⟩ := bind_eq_ok_iff.1 h
  obtain ⟨⟨_, linked⟩, hlink, h⟩ := bind_eq_ok_iff.1 h
  cases h
  exact ⟨linked, hlink, rfl⟩

theorem setGroupParams_eq_ok {id : GroupId} {params : GroupParams} (h : n.setGroupParams id params = .ok later) :
    later = n ∨ n.ended = false ∧
      later = { n with topology := n.topology.modifyGroup id fun g => { g with params } }.markCoresStale := by
  unfold Network.setGroupParams at h
  obtain ⟨_, hensure, h⟩ := bind_eq_ok_iff.1 h
  obtain ⟨g, _, h⟩ := bind_eq_ok_iff.1 h
  by_cases hsame : g.params.eq params
  · rw [if_pos hsame] at h
    cases h
    exact .inl rfl
  · rw [if_neg hsame] at h
    cases h
    exact .inr ⟨ended_eq_of_ensureNotEnded hensure, rfl⟩

theorem setExamplesFile_cases (n : Network σ) (files : FileTree) (path : Path) :
    (∃ e, (n.exampleSetFor path).readAt files path = .error e ∧
        setExamplesFile files path n = .error e { n with exampleSet := some (n.exampleSetFor path) }) ∨
      ∃ count read, (n.exampleSetFor path).readAt files path = .ok (count, read) ∧
        setExamplesFile files path n = .ok count { n.dropGraph with exampleSet := some read } := by
  unfold setExamplesFile
  rw [Step.bind_ok (x := get) rfl, Step.bind_ok (x := modify _) rfl]
  cases hread : (n.exampleSetFor path).readAt files path with
  | error e => exact .inl ⟨e, rfl, Step.bind_error rfl⟩
  | ok found => exact .inr ⟨found.1, found.2, rfl, rfl⟩

end Calls

theorem finish_cases (n : Network Loopback) :
    n.ended = true ∧ finish n = .ok () n ∨
      n.ended = false ∧
        finish n = .ok () { n with service := { n.service with stopped := true }, ended := true } := by
  unfold finish
  rw [Step.bind_ok (x := get) rfl]
  cases n.ended with
  | true => exact .inl ⟨rfl, rfl⟩
  | false => exact .inr ⟨rfl, rfl⟩

theorem make_eq_ok {σ : Type} {settings : Settings} {configuration : Configuration} {service : σ}
    {n : Network σ} (h : Network.make settings configuration service = .ok n) :
    configuration.limits.validate = .ok () ∧ ∃ t, Topology.make configuration.limits.maxSubgroupUnits = .ok t ∧
      n = { settings, topology := t, service, limits := configuration.limits
            recording := configuration.recording } := by
  unfold Network.make at h
  obtain ⟨_, hlimits, h⟩ := bind_eq_ok_iff.1 h
  by_cases hticks : settings.ticksPerInterval = 0
  · rw [if_pos hticks] at h
    cases h
  · rw [if_neg hticks] at h
    obtain ⟨t, htopology, h⟩ := bind_eq_ok_iff.1 h
    cases h
    exact ⟨hlimits, t, htopology, rfl⟩

variable {n later : Network Loopback} {graph : BuiltGraph}

/-- A new network has the bias group and no graph. -/
theorem sound_of_make {settings : Settings} {configuration : Configuration} {service : Loopback}
    (hservice : service.stopped = false) (h : Network.make settings configuration service = .ok n) :
    n.Sound := by
  obtain ⟨hlimits, t, htopology, rfl⟩ := make_eq_ok h
  refine ⟨Topology.sound_of_make htopology, Topology.filled_of_make htopology, hlimits, fun _ => hservice, ?_⟩
  intro _ graph hbuilt
  cases hbuilt

namespace Loaded

/-- What a network keeps of its calls and stages is no part of what its units hold. -/
theorem withHistory (h : n.Loaded graph) (weightsFile : Option Path) (stageId : UInt32) (aborted : Bool)
    (built : Option BuiltGraph) : { n with weightsFile, stageId, aborted, built }.Loaded graph :=
  ⟨h.compile_eq, h.routed, h.weights_read, h.held⟩

/-- Parameters of a group leave Core regions to be written. -/
theorem setGroupParams (h : n.Loaded graph) (id : GroupId) (params : GroupParams) :
    { n with topology := n.topology.modifyGroup id fun g => { g with params } }.Loaded
      { graph with coresStale := true } := by
  have hframe := n.topology.frame_setParams id params
  obtain ⟨examples, payload, hexamples, hpayloads, hheld⟩ := h.held
  refine ⟨?_, h.routed, h.weights_read, examples, payload, hexamples, hpayloads, ?_⟩
  · exact (Topology.compile_of_frame hframe n.limits).trans h.compile_eq
  · intro u hu
    exact (hheld u hu).setGroupParams id params

/-- So do parameters of the network that differ from those before. -/
theorem setParams (h : n.Loaded graph) (params : NetworkParams) :
    { n with settings := n.settings.apply params }.Loaded { graph with coresStale := true } := by
  obtain ⟨examples, payload, hexamples, hpayloads, hheld⟩ := h.held
  refine ⟨h.compile_eq, h.routed, h.weights_read, examples, payload, hexamples, hpayloads, ?_⟩
  intro u hu
  exact (hheld u hu).apply params

theorem setParams_of_not_differ (h : n.Loaded graph) (params : NetworkParams)
    (hsame : (n.settings.apply params).unitParamsDiffer n.settings = false) :
    { n with settings := n.settings.apply params }.Loaded graph := by
  obtain ⟨examples, payload, hexamples, hpayloads, hheld⟩ := h.held
  refine ⟨h.compile_eq, h.routed, h.weights_read, examples, payload, hexamples, hpayloads, ?_⟩
  intro u hu
  exact (hheld u hu).apply_of_not_differ params hsame

/-- A weights file that is named leaves Weights regions to be written once it is read. -/
theorem setWeightsFile (h : n.Loaded graph) :
    { n with weightsLoaded := false }.Loaded { graph with weightsStale := true } := by
  obtain ⟨examples, payload, hexamples, hpayloads, hheld⟩ := h.held
  refine ⟨h.compile_eq, h.routed, .inr rfl, examples, payload, hexamples, hpayloads, ?_⟩
  intro u hu
  exact (hheld u hu).markWeights

/-- Weights that are read change only what is marked already. -/
theorem withWeights (h : n.Loaded graph) (hread : n.weightsLoaded = false)
    (values : Array Numeric.Binary64) :
    { n with topology := n.topology.withWeights values, weightsLoaded := true }.Loaded graph := by
  have hstale : graph.weightsStale = true := h.weights_read.resolve_left (by simp [hread])
  have hframe := n.topology.frame_withWeights values
  obtain ⟨examples, payload, hexamples, hpayloads, hheld⟩ := h.held
  refine ⟨?_, h.routed, .inl rfl, examples, payload, hexamples, hpayloads, ?_⟩
  · exact (Topology.compile_of_frame hframe n.limits).trans h.compile_eq
  · intro u hu
    have hold := hheld u hu
    rw [hstale] at hold ⊢
    exact hold.withWeights values

/-- The examples of a loaded graph are compiled. -/
theorem compiled_eq (h : n.Loaded graph) {s : ExampleSet} (hs : n.exampleSet = some s) :
    ∃ examples, s.compiled = some examples := by
  obtain ⟨examples, _, hexamples, _⟩ := h.held
  rw [hs] at hexamples
  exact ⟨examples, hexamples⟩

end Loaded

namespace Sound

/-- Without a graph there is nothing to hold. -/
theorem of_no_graph (hn : n.Sound) {t : Topology} (ht : t.Sound) (hfilled : t.Filled) (recording : Recording)
    (examples : Option ExampleSet) (weightsLoaded : Bool) :
    { n.dropGraph with topology := t, recording, exampleSet := examples, weightsLoaded }.Sound := by
  refine ⟨ht, hfilled, hn.limits, hn.running, ?_⟩
  intro _ graph hbuilt
  cases hbuilt

theorem addGroup (hn : n.Sound) {units : Nat} {roles : Roles} {inputFunctions : Option (List InputFunction)}
    {outputFunctions : Option (List OutputFunction)} {label : Option String} {id : GroupId}
    (h : n.addGroup units roles inputFunctions outputFunctions label = .ok (id, later)) : later.Sound := by
  obtain ⟨grown, hadd, rfl⟩ := addGroup_eq_ok h
  exact hn.of_no_graph (hn.topology.addGroup hadd) (hn.filled.addGroup hadd) _ _ _

theorem addLink (hn : n.Sound) {source destination : GroupId} {label : Option String} {id : Nat}
    (h : n.addLink source destination label = .ok (id, later)) : later.Sound := by
  obtain ⟨linked, hlink, rfl⟩ := addLink_eq_ok h
  exact hn.of_no_graph (hn.topology.addLink hlink) (hn.filled.addLink hlink) _ _ _

theorem setGroupParams (hn : n.Sound) {id : GroupId} {params : GroupParams}
    (h : n.setGroupParams id params = .ok later) : later.Sound := by
  obtain rfl | ⟨hended, rfl⟩ := setGroupParams_eq_ok h
  · exact hn
  · unfold markCoresStale
    rw [if_neg (by simp [hended])]
    refine ⟨hn.topology.of_frame (n.topology.frame_setParams id params).symm, hn.filled.setParams id params,
      hn.limits, hn.running, ?_⟩
    intro _ graph hbuilt
    obtain ⟨old, hold, rfl⟩ := Option.map_eq_some_iff.1 hbuilt
    exact ((hn.loaded hended hold).setGroupParams id params).withHistory _ _ _ _

/-- A network that has ended keeps the invariant whatever becomes of its graph. -/
theorem of_ended (hn : n.Sound) (hended : n.ended = true) (settings : Settings) :
    { n with settings }.Sound := by
  refine ⟨hn.topology, hn.filled, hn.limits, hn.running, ?_⟩
  intro hrunning
  rw [hended] at hrunning
  cases hrunning

theorem setParams (hn : n.Sound) (params : NetworkParams) : (n.setParams params).Sound := by
  unfold Network.setParams markCoresStale
  by_cases hdiffer : (n.settings.apply params).unitParamsDiffer n.settings
  · rw [if_pos hdiffer]
    by_cases hended : n.ended
    · rw [if_pos hended]
      exact hn.of_ended hended _
    · rw [if_neg hended]
      refine ⟨hn.topology, hn.filled, hn.limits, hn.running, ?_⟩
      intro hrunning graph hbuilt
      obtain ⟨old, hold, rfl⟩ := Option.map_eq_some_iff.1 hbuilt
      exact ((hn.loaded hrunning hold).setParams params).withHistory _ _ _ _
  · rw [if_neg hdiffer]
    refine ⟨hn.topology, hn.filled, hn.limits, hn.running, ?_⟩
    intro hrunning graph hbuilt
    exact (hn.loaded hrunning hbuilt).setParams_of_not_differ params (by simpa using hdiffer)

theorem attachExampleSet (hn : n.Sound) (s : ExampleSet) : (n.attachExampleSet s).Sound :=
  hn.of_no_graph hn.topology hn.filled _ _ _

theorem setWeightsFile (hn : n.Sound) (path : Path) : (n.setWeightsFile path).Sound := by
  refine ⟨hn.topology, hn.filled, hn.limits, hn.running, ?_⟩
  intro hended graph hbuilt
  have hrunning : n.ended = false := hended
  simp only [Network.setWeightsFile, hrunning] at hbuilt
  obtain ⟨old, hold, rfl⟩ := Option.map_eq_some_iff.1 hbuilt
  exact (hn.loaded hrunning hold).setWeightsFile.withHistory _ _ _ _

theorem setRecording (hn : n.Sound) (recording : Recording) : (n.setRecording recording).Sound := by
  unfold Network.setRecording
  by_cases hstarted : 0 < n.stageId
  · rw [if_pos hstarted]
    exact hn
  · rw [if_neg hstarted]
    exact hn.of_no_graph hn.topology hn.filled _ _ _

/-- A set that is made for a file can only be the first, which no graph was built with. -/
theorem withExampleSetFor (hn : n.Sound) (path : Path) :
    { n with exampleSet := some (n.exampleSetFor path) }.Sound := by
  refine ⟨hn.topology, hn.filled, hn.limits, hn.running, ?_⟩
  intro hended graph hbuilt
  have hloaded := hn.loaded hended hbuilt
  obtain ⟨examples, payload, hexamples, hpayloads, hheld⟩ := hloaded.held
  have hkept : some (n.exampleSetFor path) = n.exampleSet := by
    unfold exampleSetFor
    cases hset : n.exampleSet with
    | none =>
      rw [hset] at hexamples
      cases hexamples
    | some s => rfl
  exact ⟨hloaded.compile_eq, hloaded.routed, hloaded.weights_read, examples, payload,
    by rw [hkept, hexamples], hpayloads, hheld⟩

theorem setExamplesFile (hn : n.Sound) (files : FileTree) (path : Path) :
    (Step.after (setExamplesFile files path) n).Sound := by
  obtain ⟨e, _, h⟩ | ⟨count, read, _, h⟩ := setExamplesFile_cases n files path
  · rw [Step.after_error h]
    exact hn.withExampleSetFor path
  · rw [Step.after_ok h]
    exact hn.of_no_graph hn.topology hn.filled _ _ _

/-- Nothing is promised of a network once its service is stopped. -/
theorem finish (hn : n.Sound) : (Step.after finish n).Sound := by
  obtain ⟨_, h⟩ | ⟨_, h⟩ := finish_cases n
  · rw [Step.after_ok h]
    exact hn
  · rw [Step.after_ok h]
    refine ⟨hn.topology, hn.filled, hn.limits, ?_, ?_⟩
    all_goals
      intro hrunning
      cases hrunning

theorem pushTestResults (hn : n.Sound) (results : TestResults) :
    { n with service := n.service.pushTestResults results }.Sound := by
  refine ⟨hn.topology, hn.filled, hn.limits, hn.running, ?_⟩
  intro hended graph hbuilt
  obtain ⟨hcompile, hrouted, hweights, hheld⟩ := hn.loaded hended hbuilt
  exact ⟨hcompile, hrouted, hweights, hheld⟩

end Sound

end Network

end PerceptronMesh

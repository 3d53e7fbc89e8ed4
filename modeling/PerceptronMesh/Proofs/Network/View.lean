import PerceptronMesh.Proofs.Network.Controller
import PerceptronMesh.Proofs.Network.Frames
import PerceptronMesh.Proofs.Network.Traffic

/-!
A network and its controller go together. Every call does to the fields of a controller, one after
another, what it does to the network that they are taken from, and has the same result.
-/

namespace PerceptronMesh

theorem Step.attempt_ok {σ α : Type} {step : Step σ α} {before later : σ} {a : α} (h : step before = .ok a later) :
    attempt step before = .ok (.ok a) later := by
  rw [attempt, h]

theorem Step.attempt_error {σ α : Type} {step : Step σ α} {before later : σ} {e : Error}
    (h : step before = .error e later) : attempt step before = .ok (.error e) later := by
  rw [attempt, h]

namespace Network

variable {σ : Type}

/-- The fields of a network, with its marks and its state apart from its graph. -/
def controller (n : Network σ) : Controller σ where
  settings := n.settings
  topology := n.topology
  limits := n.limits
  recording := n.recording
  exampleSet := n.exampleSet
  weightsFile := n.weightsFile
  stageId := n.stageId
  aborted := n.aborted
  weightsLoaded := n.weightsLoaded
  weightsReloaded := n.built.any (·.weightsStale)
  coresStale := n.built.any (·.coresStale)
  state := n.state
  lastOutputs := n.lastOutputs
  compiled := n.built.map (·.compiled)
  routing := n.built.map (·.routing)
  service := n.service

theorem isEnded_state (n : Network σ) : n.state.isEnded = n.ended := by
  unfold state
  cases n.ended <;> cases n.built <;> rfl

theorem hasGraph_state (n : Network σ) : n.state.hasGraph = (!n.ended && n.built.isSome) := by
  unfold state
  cases n.ended <;> cases n.built <;> rfl

theorem controller_make (settings : Settings) (configuration : Configuration) (service : σ) :
    Controller.make settings configuration service =
      (Network.make settings configuration service).map controller := by
  unfold Controller.make Network.make
  cases configuration.limits.validate with
  | error e => rfl
  | ok _ =>
    by_cases hticks : settings.ticksPerInterval = 0
    · simp only [hticks]
      rfl
    · simp only [hticks]
      cases Topology.make configuration.limits.maxSubgroupUnits <;> rfl

theorem controller_dropGraph (n : Network σ) : n.controller.dropGraph = n.dropGraph.controller := by
  obtain ⟨_, _, _, _, _, _, _, _, _, built, ended, _⟩ := n
  cases ended <;> cases built <;> rfl

theorem controller_markCoresStale (n : Network σ) : n.controller.markCoresStale = n.markCoresStale.controller := by
  obtain ⟨_, _, _, _, _, _, _, _, _, built, ended, _⟩ := n
  cases ended <;> cases built <;> rfl

theorem controller_setParams (n : Network σ) (params : NetworkParams) :
    n.controller.setParams params = (n.setParams params).controller := by
  unfold Controller.setParams setParams
  by_cases hdiffer : (n.settings.apply params).unitParamsDiffer n.settings
  · have hcontroller : (n.controller.settings.apply params).unitParamsDiffer n.controller.settings := hdiffer
    simp only [if_pos hdiffer, if_pos hcontroller]
    exact controller_markCoresStale { n with settings := n.settings.apply params }
  · have hcontroller : ¬(n.controller.settings.apply params).unitParamsDiffer n.controller.settings := hdiffer
    simp only [if_neg hdiffer, if_neg hcontroller]
    rfl

theorem controller_setWeightsFile (n : Network σ) (path : Path) :
    n.controller.setWeightsFile path = (n.setWeightsFile path).controller := by
  obtain ⟨_, _, _, _, _, _, _, _, _, built, ended, _⟩ := n
  cases ended <;> cases built <;> rfl

theorem controller_attachExampleSet (n : Network σ) (s : ExampleSet) :
    n.controller.attachExampleSet s = (n.attachExampleSet s).controller := by
  unfold Controller.attachExampleSet
  rw [controller_dropGraph]
  rfl

theorem controller_setRecording (n : Network σ) (recording : Recording) :
    n.controller.setRecording recording = (n.setRecording recording).controller := by
  unfold Controller.setRecording setRecording
  by_cases hstarted : 0 < n.stageId
  · have hcontroller : 0 < n.controller.stageId := hstarted
    rw [if_pos hstarted, if_pos hcontroller]
  · have hcontroller : ¬0 < n.controller.stageId := hstarted
    rw [if_neg hstarted, if_neg hcontroller]
    exact controller_dropGraph { n with recording }

theorem controller_changeTopology (n : Network σ) (t : Topology) :
    ({ n.controller with topology := t } : Controller σ).topologyChanged = (n.changeTopology t).controller :=
  controller_dropGraph
    { n with topology := t, weightsLoaded := false, exampleSet := n.exampleSet.map ExampleSet.invalidate }

section Steps

variable {n : Network σ}

theorem mirrors_onService {α : Type} (step : Step σ α) :
    Step.Mirrors controller (Controller.onService step) (onService step) n := by
  refine Step.mirrors_onPart ?_ ?_ step
  · rfl
  · intro _
    rfl

theorem mirrors_onTopology {α : Type} (step : Step Topology α) :
    Step.Mirrors controller (Controller.onTopology step)
      (Step.onPart Network.topology (fun topology n => { n with topology }) step) n := by
  refine Step.mirrors_onPart ?_ ?_ step
  · rfl
  · intro _
    rfl

theorem mirrors_ensureNotEnded :
    Step.Mirrors controller Controller.ensureNotEnded (Step.ofResult n.ensureNotEnded) n := by
  refine .get_left ?_
  obtain ⟨_, _, _, _, _, _, _, _, _, built, ended, _⟩ := n
  cases ended <;> cases built <;> rfl

theorem mirrors_changeTopology {α : Type} (change : Step Topology α) :
    Step.Mirrors controller (Controller.changeTopology change) (changeTopologyInPlace change) n := by
  refine .get_right (mirrors_ensureNotEnded.bind fun _ later _ => ?_)
  refine (mirrors_onTopology change).bind fun a later _ => ?_
  refine Step.Mirrors.bind (Step.mirrors_modify ?_) fun _ _ _ => Step.mirrors_pure a
  exact controller_changeTopology later later.topology

theorem mirrors_setGroupParams (id : GroupId) (params : GroupParams) :
    Step.Mirrors controller (Controller.setGroupParams id params) (setGroupParamsInPlace id params) n := by
  refine .get_right (mirrors_ensureNotEnded.bind fun _ later h => ?_)
  obtain ⟨_, rfl⟩ := Step.ofResult_eq_ok h
  refine .get_left ((Step.mirrors_ofResult _).bind fun g later _ => ?_)
  cases g.params.eq params with
  | true => exact Step.mirrors_pure _
  | false =>
    refine Step.Mirrors.bind (Step.mirrors_modify ?_) fun _ later _ => Step.mirrors_modify ?_
    · rfl
    · exact controller_markCoresStale later

theorem mirrors_setExamplesFile (files : FileTree) (path : Path) :
    Step.Mirrors controller (Controller.setExamplesFile files path) (setExamplesFile files path) n := by
  refine .get_bind (Step.Mirrors.bind (Step.mirrors_modify ?_) fun _ _ _ => ?_)
  · rfl
  refine (Step.mirrors_ofResult _).bind fun found later _ => ?_
  exact congrArg (EStateM.Result.ok found.1) (controller_dropGraph { later with exampleSet := some found.2 })

end Steps

section Checks

variable {n : Network σ}

theorem mirrors_checkSizes : Step.Mirrors controller Controller.checkSizes checkSizes n := by
  refine .get_bind ?_
  dsimp only [controller]
  cases n.topology.oversizedGroups n.limits.maxGroupUnits <;> rfl

theorem mirrors_loadWeights (files : FileTree) :
    Step.Mirrors controller (Controller.loadWeights files) (loadWeights files) n := by
  obtain ⟨_, topology, _, _, _, weightsFile, _, _, weightsLoaded, _, _, _⟩ := n
  refine .get_bind ?_
  dsimp only [controller]
  cases weightsFile with
  | none => rfl
  | some path =>
    cases weightsLoaded with
    | true => rfl
    | false =>
      cases hread : topology.readWeightsFile files path
      all_goals
        simp only [hread]
        rfl

theorem mirrors_compileExamples : Step.Mirrors controller Controller.compileExamples compileExamples n := by
  obtain ⟨_, topology, _, _, exampleSet, _, _, _, _, _, _, _⟩ := n
  refine .get_bind ?_
  dsimp only [controller]
  cases exampleSet with
  | none => rfl
  | some s =>
    cases hloaded : s.loaded with
    | false =>
      simp only [hloaded]
      rfl
    | true =>
      simp only [hloaded]
      cases s.compile topology with
      | error e => rfl
      | ok found =>
        by_cases hcount : found.1.compiledCount = 0
        all_goals
          simp only [hcount]
          rfl

theorem mirrors_preflight (files : FileTree) :
    Step.Mirrors controller (Controller.preflight files) (preflight files) n :=
  mirrors_checkSizes.bind fun _ _ _ => (mirrors_loadWeights files).bind fun _ _ _ => mirrors_compileExamples

end Checks

section Stage

variable [PlacementService σ] {n : Network σ} {graph : BuiltGraph} {stage : StageDescriptor}

/-- The fields of a network that is on its way through a stage. -/
def controllerAt (state : ControllerState) (n : Network σ) : Controller σ := { n.controller with state }

omit [PlacementService σ] in
theorem mirrors_onService_at (state : ControllerState) {α : Type} (step : Step σ α) :
    Step.Mirrors (controllerAt state) (Controller.onService step) (onService step) n := by
  refine Step.mirrors_onPart ?_ ?_ step
  · rfl
  · intro _
    rfl

theorem mirrors_compilePlaceLoad (state : ControllerState) (stage : StageDescriptor) :
    Step.Mirrors (controllerAt state) (Controller.compilePlaceLoad stage) (compilePlaceLoad stage) n := by
  refine .get_bind ((Step.mirrors_ofResult _).bind fun compiled _ _ => ?_)
  refine (mirrors_onService_at state _).bind fun routing _ _ => (Step.mirrors_ofResult _).bind fun source _ _ => ?_
  exact (Step.mirrors_ofResult _).bind fun payloads _ _ =>
    (mirrors_onService_at state _).bind fun _ _ _ => Step.mirrors_pure _

/-- A controller that fails to build a graph is idle again. -/
theorem mirrors_buildGraph (hended : n.ended = false) (hbuilt : n.built = none) (stage : StageDescriptor) :
    Step.Mirrors controller (Controller.buildGraph stage) (buildGraph stage) n := by
  have hmirrors := mirrors_compilePlaceLoad (n := n) .compiling stage
  have hkeeps := keeps_compilePlaceLoad (P := fun m : Network σ => m.ended = false ∧ m.built = none)
    (IgnoresService.bearsRequests fun _ _ h => h) stage
  have hstart : (modify fun c => { c with state := .compiling } : Step (Controller σ) PUnit) n.controller =
    .ok ⟨⟩ (controllerAt .compiling n) := rfl
  unfold Step.Mirrors Controller.buildGraph
  rw [buildGraph_eq, Step.bind_ok hstart]
  cases h : compilePlaceLoad stage n with
  | ok found later =>
    obtain ⟨hrunning, hnone⟩ := hkeeps.ok ⟨hended, hbuilt⟩ h
    rw [Step.bind_ok (Step.attempt_ok (hmirrors.eq_ok h)), Step.bind_ok h]
    refine congrArg (EStateM.Result.ok ()) ?_
    simp [controllerAt, controller, state, lastOutputs, hrunning, hnone]
  | error e later =>
    obtain ⟨hrunning, hnone⟩ := hkeeps.error ⟨hended, hbuilt⟩ h
    rw [Step.bind_ok (Step.attempt_error (hmirrors.eq_error h)), Step.bind_error h]
    refine congrArg (EStateM.Result.error e) ?_
    simp [controllerAt, controller, state, hrunning, hnone]

/-- The network has a graph with the units and routes of this one, whatever its marks. -/
def HasGraph (n : Network σ) (graph : BuiltGraph) : Prop :=
  n.built.map (fun built => (built.compiled, built.routing)) = some (graph.compiled, graph.routing)

omit [PlacementService σ] in
theorem hasGraph_of_built (hbuilt : n.built = some graph) : n.HasGraph graph := by
  rw [HasGraph, hbuilt]
  rfl

omit [PlacementService σ] in
theorem HasGraph.controller_eq (h : n.HasGraph graph) :
    n.controller.compiled = some graph.compiled ∧ n.controller.routing = some graph.routing := by
  obtain ⟨built, hbuilt, hsame⟩ := Option.map_eq_some_iff.1 h
  obtain ⟨hcompiled, hrouting⟩ := Prod.mk.inj hsame
  simp [controller, hbuilt, hcompiled, hrouting]

theorem mirrors_pushRegions (h : n.HasGraph graph) (region : Region) (roles : List UnitRole)
    (content : PayloadSource → MeshUnit → Result (List UInt8)) :
    Step.Mirrors controller (Controller.pushRegions region roles content)
      (pushRegions graph region roles content) n := by
  obtain ⟨hcompiled, hrouting⟩ := h.controller_eq
  refine .get_bind ?_
  rw [hcompiled, hrouting]
  refine (Step.mirrors_ofResult _).bind fun source _ _ => Step.mirrors_forM fun u n => ?_
  exact (Step.mirrors_ofResult _).bind fun data _ _ => mirrors_onService _

theorem mirrors_pushStage (h : n.HasGraph graph) (stage : StageDescriptor) :
    Step.Mirrors controller (Controller.pushStage stage) (pushStage graph stage) n := by
  refine .get_left ?_
  rw [h.controller_eq.1]
  exact Step.mirrors_forM fun u n => mirrors_onService _

theorem mirrors_refreshWeights (hbuilt : n.built = some graph) :
    Step.Mirrors controller Controller.refreshWeights
      (if graph.weightsStale then pushWeights graph else pure ()) n := by
  have hstale : n.controller.weightsReloaded = graph.weightsStale := by simp [controller, hbuilt]
  refine .get_left ?_
  rw [hstale]
  by_cases hmarked : graph.weightsStale
  · rw [if_pos hmarked, if_pos hmarked]
    refine (mirrors_pushRegions (hasGraph_of_built hbuilt) _ _ _).bind fun _ later _ => Step.mirrors_modify ?_
    obtain ⟨_, _, _, _, _, _, _, _, _, built, ended, _⟩ := later
    cases built <;> rfl
  · rw [if_neg hmarked, if_neg hmarked]
    exact Step.mirrors_pure _

theorem mirrors_refreshCores (h : n.HasGraph graph) (hcores : n.built.any (·.coresStale) = graph.coresStale) :
    Step.Mirrors controller Controller.refreshCores
      (if graph.coresStale then pushCores graph else pure ()) n := by
  have hstale : n.controller.coresStale = graph.coresStale := hcores
  refine .get_left ?_
  rw [hstale]
  by_cases hmarked : graph.coresStale
  · rw [if_pos hmarked, if_pos hmarked]
    refine (mirrors_pushRegions h _ _ _).bind fun _ later _ => Step.mirrors_modify ?_
    obtain ⟨_, _, _, _, _, _, _, _, _, built, ended, _⟩ := later
    cases built <;> rfl
  · rw [if_neg hmarked, if_neg hmarked]
    exact Step.mirrors_pure _

/-- A refreshed graph keeps its units and routes, and its other marks. -/
theorem keeps_refreshWeights : Step.Keeps
    (fun m : Network σ => m.HasGraph graph ∧ m.built.any (·.coresStale) = graph.coresStale)
    (if graph.weightsStale then pushWeights graph else pure ()) := by
  refine Step.keeps_ite ?_ (Step.keeps_pure _)
  refine (keeps_pushRegions (IgnoresService.bearsRequests fun _ _ h => h) _ _ _ _).bind fun _ => ?_
  refine Step.keeps_modify fun m hm => ?_
  unfold HasGraph at hm ⊢
  cases hbuilt : m.built with
  | none => simp [hbuilt] at hm
  | some built => simpa [hbuilt] using hm

theorem keeps_refreshCores : Step.Keeps (fun m : Network σ => m.HasGraph graph)
    (if graph.coresStale then pushCores graph else pure ()) := by
  refine Step.keeps_ite ?_ (Step.keeps_pure _)
  refine (keeps_pushRegions (IgnoresService.bearsRequests fun _ _ h => h) _ _ _ _).bind fun _ => ?_
  refine Step.keeps_modify fun m hm => ?_
  unfold HasGraph at hm ⊢
  simpa [Function.comp_def] using hm

theorem mirrors_prepareGraph (hended : n.ended = false) (stage : StageDescriptor) :
    Step.Mirrors controller (Controller.prepareGraph stage) (prepareGraph stage) n := by
  have hstate : n.controller.state.hasGraph = n.built.isSome := by
    show n.state.hasGraph = n.built.isSome
    rw [hasGraph_state, hended]
    rfl
  refine .get_left ?_
  rw [hstate]
  unfold Step.Mirrors
  cases hbuilt : n.built with
  | none =>
    rw [if_neg (by simp), prepareGraph_of_not_built hbuilt]
    exact mirrors_buildGraph hended hbuilt stage
  | some graph =>
    rw [if_pos (by simp), prepareGraph_of_built hbuilt]
    have hgraph : n.HasGraph graph ∧ n.built.any (·.coresStale) = graph.coresStale :=
      ⟨hasGraph_of_built hbuilt, by simp [hbuilt]⟩
    refine (mirrors_refreshWeights hbuilt).bind fun _ later h => ?_
    obtain ⟨hkept, hcores⟩ := keeps_refreshWeights.ok hgraph h
    refine (mirrors_refreshCores hkept hcores).bind fun _ later h => ?_
    exact mirrors_pushStage (keeps_refreshCores.ok hkept h) stage

/-- A network that is made ready for a stage has a graph, and has not ended. -/
theorem built_of_prepareGraph {later : Network σ} (hended : n.ended = false)
    (h : prepareGraph stage n = .ok () later) : later.ended = false ∧ later.built.isSome = true := by
  cases hbuilt : n.built with
  | none =>
    rw [prepareGraph_of_not_built hbuilt, buildGraph_eq] at h
    obtain ⟨found, middle, hload, hlast⟩ := Step.bind_eq_ok_iff.1 h
    have hkeeps := keeps_compilePlaceLoad (P := fun m : Network σ => m.ended = false)
      (IgnoresService.bearsRequests fun _ _ h => h) stage
    have hrunning := hkeeps.ok hended hload
    cases hlast
    exact ⟨hrunning, rfl⟩
  | some graph =>
    rw [prepareGraph_of_built hbuilt] at h
    have hmarks : IgnoresMarks fun m : Network σ => m.ended = false ∧ m.built.isSome = true :=
      fun change _ m hm => ⟨hm.1, by simpa using hm.2⟩
    have hrequests := IgnoresService.bearsRequests (P := fun m : Network σ => m.ended = false ∧ m.built.isSome = true)
      fun _ _ h => h
    exact (keeps_refresh hrequests hmarks graph stage).ok ⟨hended, by simp [hbuilt]⟩ h

/-- The graph stays built whether the run fails or not. -/
theorem mirrors_runOnService (hended : n.ended = false) (hbuilt : n.built.isSome = true) (stage : StageDescriptor) :
    Step.Mirrors controller (Controller.runOnService stage) (onService (PlacementService.run stage)) n := by
  have hview : Step.Mirrors (controllerAt (.running stage.id)) (Controller.onService (PlacementService.run stage))
      (onService (PlacementService.run stage)) n := mirrors_onService_at _ _
  have hkeeps : Step.Keeps (fun m : Network σ => m.ended = false ∧ m.built.isSome = true)
      (onService (PlacementService.run stage)) := keeps_onService (fun _ _ h => h) _
  have hstate (later : Network σ) (hlater : later.ended = false ∧ later.built.isSome = true) :
      controllerAt .graphBuilt later = later.controller := by
    simp [controllerAt, controller, state, hlater]
  have hstart : (modify fun c => { c with state := .running stage.id } : Step (Controller σ) PUnit) n.controller =
    .ok ⟨⟩ (controllerAt (.running stage.id) n) := rfl
  unfold Step.Mirrors Controller.runOnService
  rw [Step.bind_ok hstart]
  cases h : onService (PlacementService.run stage) n with
  | ok report later =>
    rw [Step.bind_ok (Step.attempt_ok (hview.eq_ok h)), Step.bind_ok (x := modify _) rfl]
    exact congrArg (EStateM.Result.ok report) (hstate later (hkeeps.ok ⟨hended, hbuilt⟩ h))
  | error e later =>
    rw [Step.bind_ok (Step.attempt_error (hview.eq_error h)), Step.bind_ok (x := modify _) rfl]
    exact congrArg (EStateM.Result.error e) (hstate later (hkeeps.error ⟨hended, hbuilt⟩ h))

theorem mirrors_runChecked (hended : n.ended = false) (request : StageRequest) :
    Step.Mirrors controller (Controller.runChecked request) (runChecked request) n := by
  refine .get_bind ((mirrors_prepareGraph hended _).bind fun _ ready hready => ?_)
  obtain ⟨hrunning, hbuilt⟩ := built_of_prepareGraph hended hready
  refine (mirrors_runOnService hrunning hbuilt _).bind fun report later h => ?_
  have hlater : later.built.isSome = true :=
    (keeps_onService (P := fun m : Network σ => m.built.isSome = true) (fun _ _ h => h) _).ok hbuilt h
  refine Step.Mirrors.bind (Step.mirrors_modify ?_) fun _ _ _ =>
    Step.Mirrors.bind (Step.mirrors_modify ?_) fun _ _ _ => Step.mirrors_pure _
  · obtain ⟨_, _, _, _, _, _, _, _, _, built, ended, _⟩ := later
    cases built with
    | none => cases hlater
    | some graph => cases ended <;> rfl
  · rfl

omit [PlacementService σ] in
theorem mirrors_abort (reason : AbortReason) :
    Step.Mirrors controller (Controller.abort reason) (abort reason) n := by
  refine Step.Mirrors.bind (Step.mirrors_modify ?_) fun _ _ _ => Step.mirrors_pure _
  rfl

theorem mirrors_runStage (files : FileTree) (request : StageRequest) :
    Step.Mirrors controller (Controller.runStage files request) (runStage files request) n := by
  refine Step.Mirrors.bind (Step.mirrors_modify ?_) fun _ n _ => ?_
  · rfl
  refine .get_bind ?_
  rw [show n.controller.state.isEnded = n.ended from n.isEnded_state]
  cases hended : n.ended with
  | true => exact mirrors_abort _
  | false =>
    refine .get_bind ?_
    cases hpre : preflight files n with
    | error reason later =>
      rw [(mirrors_preflight files).eq_error hpre]
      exact .set_bind (mirrors_abort reason)
    | ok _ later =>
      rw [(mirrors_preflight files).eq_ok hpre]
      exact .set_bind (mirrors_runChecked ((kept_of_preflight hpre).2.2.trans hended) request)

theorem mirrors_finish : Step.Mirrors controller Controller.finish finish n := by
  refine .get_bind ?_
  rw [show n.controller.state.isEnded = n.ended from n.isEnded_state]
  cases n.ended with
  | true => exact Step.mirrors_pure _
  | false =>
    rw [Bool.not_false, if_pos rfl, if_pos rfl]
    refine (mirrors_onService _).bind fun _ _ _ => Step.mirrors_modify ?_
    rfl

end Stage

end Network

end PerceptronMesh

import PerceptronMesh.Proofs.Network.Aborted
import PerceptronMesh.Proofs.Placement.Logged

/-!
What stages ask of the placement service. A run over a service that keeps a log goes as the run
without one does, and its log is what the steps of the run ask for, one after another.
-/

namespace PerceptronMesh

/-- Runs the stage on a network over any service. -/
def StageCall.runOn {σ : Type} [PlacementService σ] : StageCall → Step (Network σ) StageOutcome
  | .train files updateFunction updates => Network.train files updateFunction updates
  | .test files examples reset => Network.test files examples reset

theorem StageCall.runOn_eq {σ : Type} [PlacementService σ] (call : StageCall) (n : Network σ) :
    call.runOn n = Network.runStage call.files (call.request n.settings) n := by
  cases call <;> rfl

namespace Network

section Service

variable {σ τ : Type}

/-- The network over another service. -/
def withService (n : Network σ) (service : τ) : Network τ :=
  { n with service }

variable (n : Network σ) (service : τ)

theorem checkSizes_withService :
    Step.Mirrors (fun n => n.withService service) checkSizes (checkSizes : Check σ Unit) n := by
  refine .get_bind ?_
  dsimp only [withService]
  cases n.topology.oversizedGroups n.limits.maxGroupUnits <;> rfl

theorem loadWeights_withService (files : FileTree) :
    Step.Mirrors (fun n => n.withService service) (loadWeights files) (loadWeights files : Check σ Unit) n := by
  obtain ⟨_, topology, _, _, _, weightsFile, _, _, weightsLoaded, _, _, _⟩ := n
  refine .get_bind ?_
  dsimp only [withService]
  cases weightsFile with
  | none => rfl
  | some path =>
    cases weightsLoaded with
    | true => rfl
    | false =>
      cases hread : topology.readWeightsFile files path
      all_goals
        simp only [hread]
        rfl

theorem compileExamples_withService :
    Step.Mirrors (fun n => n.withService service) compileExamples (compileExamples : Check σ Unit) n := by
  obtain ⟨_, topology, _, _, exampleSet, _, _, _, _, _, _, _⟩ := n
  refine .get_bind ?_
  dsimp only [withService]
  cases exampleSet with
  | none => rfl
  | some s =>
    cases hloaded : s.loaded with
    | false =>
      simp only [hloaded]
      rfl
    | true =>
      simp only [hloaded]
      cases s.compile topology with
      | error e => rfl
      | ok found =>
        by_cases hcount : found.1.compiledCount = 0
        all_goals
          simp only [hcount]
          rfl

/-- No check looks at the service. -/
theorem preflight_withService (files : FileTree) :
    Step.Mirrors (fun n => n.withService service) (preflight files) (preflight files : Check σ Unit) n :=
  (checkSizes_withService n service).bind fun _ n _ =>
    (loadWeights_withService n service files).bind fun _ n _ => compileExamples_withService n service

end Service

/-- The network over a service with a log. -/
def logged (n : Network Loopback) (past : List ServiceRequest) : Network (Logged Loopback) :=
  n.withService ⟨n.service, past⟩

/-- A step comes to its end, and on its way asks for the requests. -/
structure Traffic {α : Type} (step : Step (Network (Logged Loopback)) α) (n : Network Loopback) (a : α)
    (later : Network Loopback) (requests : List ServiceRequest) : Prop where
  run_eq : ∀ past, step (n.logged past) = .ok a (later.logged (past ++ requests))
  granted : n.service.Granted requests later.service

variable {n middle later : Network Loopback} {α β : Type} {a : α} {b : β}

theorem Traffic.bind {step : Step (Network (Logged Loopback)) α} {rest : α → Step (Network (Logged Loopback)) β}
    {first last : List ServiceRequest} (hfirst : Traffic step n a middle first)
    (hlast : Traffic (rest a) middle b later last) : Traffic (step >>= rest) n b later (first ++ last) := by
  refine ⟨?_, hfirst.granted.trans hlast.granted⟩
  intro past
  rw [Step.bind_ok (hfirst.run_eq past), hlast.run_eq, List.append_assoc]

theorem Traffic.andThen {step : Step (Network (Logged Loopback)) α} {next : Step (Network (Logged Loopback)) β}
    {first last : List ServiceRequest} (hfirst : Traffic step n a middle first)
    (hlast : Traffic next middle b later last) : Traffic (step >>= fun _ => next) n b later (first ++ last) :=
  hfirst.bind hlast

/-- A step that leaves the service alone. -/
theorem traffic_nil {step : Step (Network (Logged Loopback)) α}
    (h : ∀ past, step (n.logged past) = .ok a (later.logged past)) (hservice : later.service = n.service) :
    Traffic step n a later [] := by
  refine ⟨?_, hservice ▸ .refl _⟩
  intro past
  rw [List.append_nil]
  exact h past

theorem traffic_ofResult {result : Result α} (h : result = .ok a) : Traffic (Step.ofResult result) n a n [] :=
  traffic_nil (fun _ => Step.ofResult_ok h) rfl

section Bind

variable {rest : α → Step (Network (Logged Loopback)) β} {requests : List ServiceRequest}

theorem Traffic.ofResult_bind {result : Result α} (h : result = .ok a) (hrest : Traffic (rest a) n b later requests) :
    Traffic (Step.ofResult result >>= rest) n b later requests :=
  (traffic_ofResult h).bind hrest

theorem Traffic.request_bind {step : Step (Network (Logged Loopback)) α} {request : ServiceRequest}
    (h : Traffic step n a middle [request]) (hrest : Traffic (rest a) middle b later requests) :
    Traffic (step >>= rest) n b later (request :: requests) :=
  h.bind hrest

/-- A step after which the service is left alone. -/
theorem Traffic.bind_nil {step : Step (Network (Logged Loopback)) α} (h : Traffic step n a middle requests)
    (hrest : Traffic (rest a) middle b later []) : Traffic (step >>= rest) n b later requests := by
  have hboth := h.bind hrest
  rwa [List.append_nil] at hboth

end Bind

/-- A step that looks at the network alone, and not at its log. -/
theorem traffic_get {rest : Network (Logged Loopback) → Step (Network (Logged Loopback)) α}
    {step : Step (Network (Logged Loopback)) α} {requests : List ServiceRequest}
    (hrest : ∀ past, rest (n.logged past) = step) (h : Traffic step n a later requests) :
    Traffic (get >>= rest) n a later requests := by
  refine ⟨?_, h.granted⟩
  intro past
  rw [Step.bind_ok (x := get) rfl, hrest]
  exact h.run_eq past

theorem traffic_onService {step : Step Loopback α} {request : ServiceRequest} (h : onService step n = .ok a later)
    (hgranted : ∀ {service}, step n.service = .ok a service → n.service.Granted [request] service) :
    Traffic (onService (Logged.log request step)) n a later [request] := by
  obtain ⟨service, hstep, rfl⟩ := Step.onPart_eq_ok h
  refine ⟨?_, hgranted hstep⟩
  intro past
  exact Step.onPart_ok (Logged.log_ok hstep past)

theorem traffic_forM {ι : Type} {items : List ι} {step : ι → Step (Network Loopback) PUnit}
    {logged : ι → Step (Network (Logged Loopback)) PUnit} {request : ι → ServiceRequest} {u : PUnit}
    (hstep : ∀ {item n u later}, step item n = .ok u later → Traffic (logged item) n u later [request item])
    (h : items.forM step n = .ok u later) : Traffic (items.forM logged) n u later (items.map request) := by
  induction items generalizing n with
  | nil =>
    cases h
    exact traffic_nil (fun _ => rfl) rfl
  | cons item rest ih =>
    obtain ⟨_, _, hitem, hrest⟩ := Step.bind_eq_ok_iff.1 h
    exact (hstep hitem).bind (ih hrest)

/-- The requests that write a region of every unit of certain roles. -/
def regionRequests (graph : BuiltGraph) (region : Region) (roles : List UnitRole) : List ServiceRequest :=
  (graph.compiled.graph.units.toList.filter fun u => roles.contains u.role).map fun u =>
    .updateRegion u.id region

theorem traffic_updateRegion {unit : UnitId} {region : Region} {data : List UInt8} {u : Unit}
    (h : onService (PlacementService.updateRegion unit region data) n = .ok u later) :
    Traffic (onService (PlacementService.updateRegion unit region data)) n u later [.updateRegion unit region] :=
  traffic_onService h Loopback.granted_updateRegion

theorem traffic_pushRegions {graph : BuiltGraph} {region : Region} {roles : List UnitRole}
    {content : PayloadSource → MeshUnit → Result (List UInt8)} {u : Unit}
    (h : pushRegions graph region roles content n = .ok u later) :
    Traffic (pushRegions graph region roles content) n u later (regionRequests graph region roles) := by
  unfold pushRegions at h ⊢
  rw [Step.bind_ok (x := get) rfl] at h
  obtain ⟨source, hsource, h⟩ := Step.ofResult_bind_eq_ok h
  refine traffic_get (fun _ => rfl) (.ofResult_bind hsource (traffic_forM ?_ h))
  intro item n u later hitem
  obtain ⟨data, hdata, hitem⟩ := Step.ofResult_bind_eq_ok hitem
  exact .ofResult_bind hdata (traffic_updateRegion hitem)

theorem traffic_pushStage {graph : BuiltGraph} {stage : StageDescriptor} {u : Unit}
    (h : pushStage graph stage n = .ok u later) :
    Traffic (pushStage graph stage) n u later
      (graph.compiled.graph.units.toList.map fun u => .updateRegion u.id .stage) :=
  traffic_forM traffic_updateRegion h

theorem traffic_modifyBuilt {change : BuiltGraph → BuiltGraph} {u : Unit} (h : modifyBuilt change n = .ok u later) :
    Traffic (modifyBuilt change) n u later [] := by
  cases h
  exact traffic_nil (fun _ => rfl) rfl

theorem traffic_pushWeights {graph : BuiltGraph} {u : Unit} (h : pushWeights graph n = .ok u later) :
    Traffic (pushWeights graph) n u later (regionRequests graph .weights [.weight]) := by
  obtain ⟨_, _, hpush, h⟩ := Step.bind_eq_ok_iff.1 h
  exact (traffic_pushRegions hpush).bind_nil (traffic_modifyBuilt h)

theorem traffic_pushCores {graph : BuiltGraph} {u : Unit} (h : pushCores graph n = .ok u later) :
    Traffic (pushCores graph) n u later (regionRequests graph .core [.weight, .threshold]) := by
  obtain ⟨_, _, hpush, h⟩ := Step.bind_eq_ok_iff.1 h
  exact (traffic_pushRegions hpush).bind_nil (traffic_modifyBuilt h)

theorem traffic_buildGraph {stage : StageDescriptor} {u : Unit} (h : buildGraph stage n = .ok u later) :
    Traffic (buildGraph stage) n u later [.place, .load] := by
  unfold buildGraph at h ⊢
  rw [Step.bind_ok (x := get) rfl] at h
  obtain ⟨compiled, hcompile, h⟩ := Step.ofResult_bind_eq_ok h
  obtain ⟨routing, placed, hplace, h⟩ := Step.bind_eq_ok_iff.1 h
  obtain ⟨source, hsource, h⟩ := Step.ofResult_bind_eq_ok h
  obtain ⟨payloads, hpayloads, h⟩ := Step.ofResult_bind_eq_ok h
  obtain ⟨_, loaded, hload, h⟩ := Step.bind_eq_ok_iff.1 h
  cases h
  have hplaced := traffic_onService hplace Loopback.granted_place
  have hloaded : Traffic (onService (PlacementService.load payloads)) placed _ loaded [.load] :=
    traffic_onService hload (Loopback.granted_of_keeps (fun _ _ => Loopback.keeps_load (fun _ _ h => h) payloads) rfl (by decide))
  have hsteps : Traffic (do
      let compiled ← Step.ofResult (compile n.topology n.limits)
      let routing ← onService (PlacementService.place compiled.graph)
      let source ← Step.ofResult (n.payloadSource compiled routing)
      let payloads ← Step.ofResult (source.buildAll stage)
      onService (PlacementService.load payloads)
      modify fun n => { n with built := some { compiled, routing } }) n () { loaded with
        built := some { compiled, routing } } [.place, .load] :=
    .ofResult_bind hcompile (.request_bind hplaced (.ofResult_bind hsource (.ofResult_bind hpayloads
      (.request_bind hloaded (traffic_nil (fun _ => rfl) rfl)))))
  exact traffic_get (fun _ => rfl) hsteps

/-- What brings a graph up to date for a stage: the regions that are stale, and then the stage. -/
def refreshRequests (graph : BuiltGraph) (weightsStale coresStale : Bool) : List ServiceRequest :=
  (if weightsStale then regionRequests graph .weights [.weight] else []) ++
    (if coresStale then regionRequests graph .core [.weight, .threshold] else []) ++
    graph.compiled.graph.units.toList.map fun u => .updateRegion u.id .stage

/-- What makes the units of a network ready for a stage. -/
def prepareRequests (n : Network Loopback) : List ServiceRequest :=
  match n.built with
  | none => [.place, .load]
  | some graph => refreshRequests graph graph.weightsStale graph.coresStale

theorem traffic_if {c : Bool} {step : Step (Network Loopback) Unit}
    {logged : Step (Network (Logged Loopback)) Unit} {requests : List ServiceRequest} {u : Unit}
    (hstep : ∀ {later}, step n = .ok u later → Traffic logged n u later requests)
    (h : (if c then step else pure ()) n = .ok u later) :
    Traffic (if c then logged else pure ()) n u later (if c then requests else []) := by
  cases c with
  | true => exact hstep h
  | false =>
    cases h
    exact traffic_nil (fun _ => rfl) rfl

theorem traffic_prepareGraph {stage : StageDescriptor} {u : Unit} (h : prepareGraph stage n = .ok u later) :
    Traffic (prepareGraph stage) n u later n.prepareRequests := by
  unfold prepareRequests
  cases hbuilt : n.built with
  | none =>
    have hlogged (past : List ServiceRequest) : (n.logged past).built = none := hbuilt
    obtain ⟨hrun, hgranted⟩ := traffic_buildGraph ((prepareGraph_of_not_built hbuilt).symm.trans h)
    exact ⟨fun past => (prepareGraph_of_not_built (hlogged past)).trans (hrun past), hgranted⟩
  | some graph =>
    have hlogged (past : List ServiceRequest) : (n.logged past).built = some graph := hbuilt
    rw [prepareGraph_of_built hbuilt] at h
    obtain ⟨_, _, hweights, h⟩ := Step.bind_eq_ok_iff.1 h
    obtain ⟨_, _, hcores, h⟩ := Step.bind_eq_ok_iff.1 h
    have hrest := (traffic_if traffic_pushCores hcores).andThen (traffic_pushStage h)
    obtain ⟨hrun, hgranted⟩ := (traffic_if traffic_pushWeights hweights).andThen hrest
    dsimp only [refreshRequests]
    rw [List.append_assoc]
    exact ⟨fun past => (prepareGraph_of_built (hlogged past)).trans (hrun past), hgranted⟩

theorem traffic_run {stage : StageDescriptor} {report : StageReport}
    (h : onService (PlacementService.run stage) n = .ok report later) :
    Traffic (onService (PlacementService.run stage)) n report later [.run] :=
  traffic_onService h
    (Loopback.granted_of_keeps (fun _ _ => Loopback.keeps_run (fun _ _ _ _ _ h => h) stage) rfl (by decide))

/-- A stage is run once its units are ready. -/
theorem traffic_runChecked {request : StageRequest} {outcome : StageOutcome}
    (h : runChecked request n = .ok outcome later) :
    Traffic (runChecked request) n outcome later (n.prepareRequests ++ [.run]) := by
  unfold runChecked at h
  rw [Step.bind_ok (x := get) rfl] at h
  obtain ⟨_, _, hprepare, h⟩ := Step.bind_eq_ok_iff.1 h
  obtain ⟨report, ran, hrun, h⟩ := Step.bind_eq_ok_iff.1 h
  cases h
  have hreport : Traffic (do
      let report ← onService (PlacementService.run (n.descriptor request))
      modifyBuilt fun graph => { graph with lastOutputs := report.outputs }
      modify fun n => { n with stageId := n.stageId + 1 }
      pure (StageOutcome.completed report)) _ _ { ran with
        built := ran.built.map fun graph => { graph with lastOutputs := report.outputs }
        stageId := ran.stageId + 1 } [.run] :=
    .request_bind (traffic_run hrun) (traffic_nil (fun _ => rfl) rfl)
  exact traffic_get (fun _ => rfl) ((traffic_prepareGraph hprepare).andThen hreport)

/-- What a completed stage asks for, from the graph as it was at the call. -/
theorem traffic_completed {call : StageCall} {report : StageReport}
    (h : call.run n = .ok (.completed report) later) :
    Traffic call.runOn n (.completed report) later (n.prepareRequests ++ [.run]) := by
  rw [call.run_eq] at h
  obtain ⟨_, _, hrun⟩ | ⟨_, _, _, _, _, hrun⟩ | ⟨checked, ⟨hrunning, _⟩, hpre, hrun⟩ :=
    runStage_cases n call.files (call.request n.settings)
  · cases h.symm.trans hrun
  · cases h.symm.trans hrun
  obtain ⟨hservice, hbuilt, _⟩ := kept_of_preflight hpre
  obtain ⟨hlogged, hgranted⟩ := traffic_runChecked (hrun.symm.trans h)
  have hrequests : checked.prepareRequests = n.prepareRequests := by
    rw [prepareRequests, hbuilt, prepareRequests]
  rw [hrequests] at hlogged hgranted
  refine ⟨?_, hservice ▸ hgranted⟩
  intro past
  have hpreLogged : preflight call.files { n.logged past with aborted := false } =
      .ok () (checked.withService (⟨n.service, past⟩ : Logged Loopback)) :=
    (preflight_withService _ _ _).eq_ok hpre
  have hrunningLogged : (n.logged past).ended = false := hrunning
  have hservice : checked.service = n.service := hservice
  rw [call.runOn_eq, runStage_of_passes hrunningLogged hpreLogged, ← hservice]
  exact hlogged past

/-- A network that has ended asks for nothing more. -/
theorem traffic_ended (hended : n.ended = true) (call : StageCall) :
    Traffic call.runOn n (.aborted .ended) { n with aborted := true } [] := by
  refine traffic_nil (fun past => ?_) rfl
  rw [call.runOn_eq]
  exact runStage_of_ended hended

end Network

end PerceptronMesh

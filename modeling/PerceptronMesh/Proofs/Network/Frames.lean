import PerceptronMesh.Network.Stage
import PerceptronMesh.Proofs.Placement.Step

/-!
What the steps of a stage leave alone, over any service. They change the service, the graph and the
number of the next stage. A property that looks at none of these lasts through a stage, and one
that looks at the graph has only to bear a new graph, other marks and other recordings.
-/

namespace PerceptronMesh

namespace Network

variable {σ : Type} {n later : Network σ} {graph : BuiltGraph} {stage : StageDescriptor} {P : Network σ → Prop}

/-- A property that does not look at the service. -/
def IgnoresService (P : Network σ → Prop) : Prop := ∀ service n, P n → P { n with service }

/-- A property that looks at no mark of a graph and at nothing recorded on it. -/
def IgnoresMarks (P : Network σ → Prop) : Prop :=
  ∀ change : BuiltGraph → BuiltGraph, (∀ graph, (change graph).compiled = graph.compiled) →
    ∀ n, P n → P { n with built := n.built.map change }

theorem keeps_onService (hservice : IgnoresService P) {α : Type} (step : Step σ α) : Step.Keeps P (onService step) :=
  Step.keeps_onPart hservice step

variable [PlacementService σ]

/-- A property that the requests in front of a run leave alone. -/
structure BearsRequests (P : Network σ → Prop) : Prop where
  place : ∀ g, Step.Keeps P (onService (PlacementService.place g))
  load : ∀ payloads, Step.Keeps P (onService (PlacementService.load payloads))
  updateRegion : ∀ unit region data, Step.Keeps P (onService (PlacementService.updateRegion unit region data))

theorem IgnoresService.bearsRequests (h : IgnoresService P) : BearsRequests P :=
  ⟨fun _ => keeps_onService h _, fun _ => keeps_onService h _, fun _ _ _ => keeps_onService h _⟩

/-- Building a graph up to where it is kept. -/
def compilePlaceLoad (stage : StageDescriptor) : Step (Network σ) (CompiledGraph × RoutingTable) := do
  let n ← get
  let compiled ← Step.ofResult (compile n.topology n.limits)
  let routing ← onService (PlacementService.place compiled.graph)
  let source ← Step.ofResult (n.payloadSource compiled routing)
  let payloads ← Step.ofResult (source.buildAll stage)
  onService (PlacementService.load payloads)
  pure (compiled, routing)

theorem buildGraph_eq (stage : StageDescriptor) : (buildGraph stage : Step (Network σ) Unit) =
    compilePlaceLoad stage >>= fun found =>
      modify fun n => { n with built := some { compiled := found.1, routing := found.2 } } := by
  simp only [buildGraph, compilePlaceLoad, bind_assoc, pure_bind]

theorem compile_of_compilePlaceLoad {found : CompiledGraph × RoutingTable}
    (h : compilePlaceLoad stage n = .ok found later) : compile n.topology n.limits = .ok found.1 := by
  unfold compilePlaceLoad at h
  rw [Step.bind_ok (x := get) rfl] at h
  obtain ⟨compiled, hcompile, h⟩ := Step.ofResult_bind_eq_ok h
  obtain ⟨_, _, _, h⟩ := Step.bind_eq_ok_iff.1 h
  obtain ⟨_, _, h⟩ := Step.ofResult_bind_eq_ok h
  obtain ⟨_, _, h⟩ := Step.ofResult_bind_eq_ok h
  obtain ⟨_, _, _, h⟩ := Step.bind_eq_ok_iff.1 h
  cases h
  exact hcompile

/-- What is done to a graph that is kept. -/
theorem prepareGraph_of_built (hbuilt : n.built = some graph) :
    prepareGraph stage n =
      ((if graph.weightsStale then pushWeights graph else pure ()) >>= fun _ =>
        (if graph.coresStale then pushCores graph else pure ()) >>= fun _ => pushStage graph stage) n := by
  unfold prepareGraph
  rw [Step.bind_ok (x := get) rfl, hbuilt]
  dsimp only
  cases graph.weightsStale <;> cases graph.coresStale <;> rfl

theorem prepareGraph_of_not_built (hbuilt : n.built = none) : prepareGraph stage n = buildGraph stage n := by
  unfold prepareGraph
  rw [Step.bind_ok (x := get) rfl, hbuilt]

section Keeps

variable (hrequests : BearsRequests P)
include hrequests

theorem keeps_compilePlaceLoad (stage : StageDescriptor) : Step.Keeps P (compilePlaceLoad stage) := by
  refine Step.keeps_get.bind fun n => (Step.keeps_ofResult _).bind fun compiled => ?_
  refine (hrequests.place _).bind fun routing => (Step.keeps_ofResult _).bind fun source => ?_
  refine (Step.keeps_ofResult _).bind fun payloads => (hrequests.load _).bind fun _ => ?_
  exact Step.keeps_pure _

theorem keeps_buildGraph
    (hnew : ∀ n compiled routing, P n → P { n with built := some { compiled, routing } })
    (stage : StageDescriptor) : Step.Keeps P (buildGraph stage) := by
  rw [buildGraph_eq]
  exact (keeps_compilePlaceLoad hrequests stage).bind fun found => Step.keeps_modify fun n hn => hnew n _ _ hn

theorem keeps_pushRegions (graph : BuiltGraph) (region : Region) (roles : List UnitRole)
    (content : PayloadSource → MeshUnit → Result (List UInt8)) :
    Step.Keeps P (pushRegions graph region roles content) := by
  refine Step.keeps_get.bind fun n => (Step.keeps_ofResult _).bind fun source => Step.keeps_forM fun u => ?_
  exact (Step.keeps_ofResult _).bind fun data => hrequests.updateRegion _ _ _

variable (hmarks : IgnoresMarks P)
include hmarks

theorem keeps_refresh (graph : BuiltGraph) (stage : StageDescriptor) : Step.Keeps P
    ((if graph.weightsStale then pushWeights graph else pure ()) >>= fun _ =>
      (if graph.coresStale then pushCores graph else pure ()) >>= fun _ => pushStage graph stage) := by
  have hweights : Step.Keeps P (pushWeights graph) :=
    (keeps_pushRegions hrequests _ _ _ _).bind fun _ => Step.keeps_modify (hmarks _ fun _ => rfl)
  have hcores : Step.Keeps P (pushCores graph) :=
    (keeps_pushRegions hrequests _ _ _ _).bind fun _ => Step.keeps_modify (hmarks _ fun _ => rfl)
  have hstage : Step.Keeps P (pushStage graph stage) := Step.keeps_forM fun _ => hrequests.updateRegion _ _ _
  refine (Step.keeps_ite hweights (Step.keeps_pure _)).bind fun _ => ?_
  exact (Step.keeps_ite hcores (Step.keeps_pure _)).bind fun _ => hstage

variable (hbuild : ∀ stage, Step.Keeps P (buildGraph stage))
include hbuild

theorem keeps_prepareGraph (stage : StageDescriptor) : Step.Keeps P (prepareGraph stage) := by
  intro n hn
  unfold Step.after
  cases hbuilt : n.built with
  | none =>
    rw [prepareGraph_of_not_built hbuilt]
    exact hbuild stage n hn
  | some graph =>
    rw [prepareGraph_of_built hbuilt]
    exact keeps_refresh hrequests hmarks graph stage n hn

end Keeps

theorem keeps_runChecked (hservice : IgnoresService P) (hmarks : IgnoresMarks P)
    (hbuild : ∀ stage, Step.Keeps P (buildGraph stage)) (hstageId : ∀ stageId n, P n → P { n with stageId })
    (request : StageRequest) : Step.Keeps P (runChecked request) := by
  refine Step.keeps_get.bind fun n => ?_
  refine (keeps_prepareGraph hservice.bearsRequests hmarks hbuild _).bind fun _ => ?_
  refine (keeps_onService hservice _).bind fun report => ?_
  refine Step.Keeps.bind (Step.keeps_modify (hmarks _ fun _ => rfl)) fun _ => ?_
  exact (Step.keeps_modify fun n hn => hstageId _ n hn).bind fun _ => Step.keeps_pure _

end Network

end PerceptronMesh

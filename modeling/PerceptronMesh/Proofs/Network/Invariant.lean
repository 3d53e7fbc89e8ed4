import PerceptronMesh.Proofs.Network.Attached
import PerceptronMesh.Proofs.Network.Lifecycle

/-!
The invariant of a controller. Between calls it is idle, has a graph that stages run on, or has
ended, and its fields agree with that; once it has ended it asks nothing more of the service.
-/

namespace PerceptronMesh

namespace Controller

variable {σ : Type} {c : Controller σ}

/-- What a controller has while a graph is built: the graph that the topology compiles to, its
routes, compiled examples, groups that are small enough and a block of weights for every link. The
weights may still have to be read again, but then the graph is marked. -/
structure Ready (c : Controller σ) : Prop where
  compiled : ∃ compiled, c.compiled = some compiled ∧ compile c.topology c.limits = .ok compiled
  routing : c.routing ≠ none
  examples : ∃ s examples, c.exampleSet = some s ∧ s.compiled = some examples
  sizes : ∀ g ∈ c.topology.groups, g.units ≤ c.limits.maxGroupUnits
  blocks : ∀ l ∈ c.topology.links, c.topology.HasBlock l
  read : c.weightsLoaded = false → c.weightsReloaded = true

structure Invariant (c : Controller σ) : Prop where
  state_cases : c.state = .idle ∨ c.state = .graphBuilt ∨ c.state = .ended
  idle : c.state = .idle →
    c.compiled = none ∧ c.routing = none ∧ c.weightsReloaded = false ∧ c.coresStale = false
  graphBuilt : c.state = .graphBuilt → c.Ready
  outputs : c.lastOutputs ≠ none → c.compiled ≠ none

end Controller

namespace Network

variable {σ : Type} {n : Network σ}

theorem Consistent.ready (hn : n.Consistent) (hended : n.ended = false) {graph : BuiltGraph}
    (hbuilt : n.built = some graph) : n.controller.Ready := by
  have hfits := hn.fits hended hbuilt
  obtain ⟨examples, hexamples⟩ := hfits.compiled
  obtain ⟨s, hs, hcompiled⟩ := Option.bind_eq_some_iff.1 hexamples
  refine ⟨⟨graph.compiled, ?_, hfits.compile_eq⟩, ?_, ⟨s, examples, hs, hcompiled⟩, ?_, ?_, ?_⟩
  · simp [controller, hbuilt]
  · simp [controller, hbuilt]
  · intro g hg
    by_contra hlarge
    have hmem : g ∈ n.topology.oversizedGroups n.limits.maxGroupUnits :=
      List.mem_filter.2 ⟨hg, decide_eq_true (Nat.lt_of_not_le hlarge)⟩
    rw [hfits.sizes] at hmem
    cases hmem
  · exact fun l hl => hn.linked.hasBlock hn.filled hfits.weighted hl
  · intro hunread
    have hunread : n.weightsLoaded = false := hunread
    simpa [controller, hbuilt, hunread] using hfits.read

theorem Consistent.invariant (hn : n.Consistent) : n.controller.Invariant := by
  have hstate : n.controller.state = n.state := rfl
  have houtputs : n.controller.lastOutputs ≠ none → n.controller.compiled ≠ none := by
    intro hkept hnone
    have hbuilt : n.built = none := by simpa [controller] using hnone
    exact hkept (by simp [controller, lastOutputs, hbuilt])
  rw [state] at hstate
  cases hended : n.ended with
  | true =>
    rw [hended, if_pos rfl] at hstate
    refine ⟨.inr (.inr hstate), ?_, ?_, houtputs⟩
    all_goals
      intro hother
      cases hstate.symm.trans hother
  | false =>
    rw [hended, if_neg Bool.false_ne_true] at hstate
    cases hbuilt : n.built with
    | none =>
      rw [hbuilt] at hstate
      refine ⟨.inl hstate, ?_, ?_, houtputs⟩
      · intro _
        simp [controller, hbuilt]
      · intro hother
        cases hstate.symm.trans hother
    | some graph =>
      rw [hbuilt] at hstate
      refine ⟨.inr (.inl hstate), ?_, fun _ => hn.ready hended hbuilt, houtputs⟩
      intro hother
      cases hstate.symm.trans hother

end Network

namespace Controller

variable {σ : Type} [PlacementService σ] {c : Controller σ}

omit [PlacementService σ] in
/-- The controller over its service with an empty log. -/
def logged (c : Controller σ) : Controller (Logged σ) := { c with service := ⟨c.service, []⟩ }

/-- What a call asks of the service, whether it is granted or not. -/
def requests (c : Controller σ) (call : PublicCall) : List ServiceRequest :=
  (Step.after call.onController c.logged).service.requests

/-- The controller has ended, and the service is this one. -/
def EndedWith (service : σ) (c : Controller σ) : Prop := c.state = .ended ∧ c.service = service

section Ended

variable {service : σ}

omit [PlacementService σ]

theorem EndedWith.isEnded (h : EndedWith service c) : c.state.isEnded = true := by
  rw [h.1]
  rfl

theorem EndedWith.dropGraph (h : EndedWith service c) : EndedWith service c.dropGraph := by
  unfold Controller.dropGraph
  dsimp only
  rw [if_pos h.isEnded]
  exact h

theorem EndedWith.markCoresStale (h : EndedWith service c) : EndedWith service c.markCoresStale := by
  unfold Controller.markCoresStale
  split
  · exact h
  · exact h

theorem EndedWith.setParams (h : EndedWith service c) (params : NetworkParams) :
    EndedWith service (c.setParams params) := by
  have hchanged : EndedWith service { c with settings := c.settings.apply params } := h
  unfold Controller.setParams
  dsimp only
  split
  · exact hchanged.markCoresStale
  · exact hchanged

theorem EndedWith.setWeightsFile (h : EndedWith service c) (path : Path) :
    EndedWith service (c.setWeightsFile path) := by
  unfold Controller.setWeightsFile
  dsimp only
  split
  · exact h
  · exact h

theorem EndedWith.setRecording (h : EndedWith service c) (recording : Recording) :
    EndedWith service (c.setRecording recording) := by
  have hchanged : EndedWith service { c with recording } := h
  unfold Controller.setRecording
  split
  · exact h
  · exact hchanged.dropGraph

theorem keeps_ensureNotEnded : Step.Keeps (EndedWith service) ensureNotEnded :=
  Step.keeps_get.bind fun _ => Step.keeps_ite (Step.keeps_throw _) (Step.keeps_pure _)

theorem keeps_changeTopology {α : Type} (change : Step Topology α) :
    Step.Keeps (EndedWith service) (changeTopology change) := by
  refine keeps_ensureNotEnded.bind fun _ => Step.Keeps.bind (Step.keeps_onPart ?_ _) fun a => ?_
  · exact fun _ _ h => h
  · refine (Step.keeps_modify fun c h => ?_).bind fun _ => Step.keeps_pure a
    exact EndedWith.dropGraph h

theorem keeps_setGroupParams (id : GroupId) (params : GroupParams) :
    Step.Keeps (EndedWith service) (setGroupParams id params) := by
  refine keeps_ensureNotEnded.bind fun _ => Step.keeps_get.bind fun c => (Step.keeps_ofResult _).bind fun g => ?_
  refine Step.keeps_ite (Step.Keeps.bind (Step.keeps_modify fun _ h => h) fun _ => ?_) (Step.keeps_pure _)
  exact Step.keeps_modify fun _ h => h.markCoresStale

theorem keeps_setExamplesFile (files : FileTree) (path : Path) :
    Step.Keeps (EndedWith service) (setExamplesFile files path) := by
  refine Step.keeps_get.bind fun c => Step.Keeps.bind (Step.keeps_modify fun _ h => h) fun _ => ?_
  refine (Step.keeps_ofResult _).bind fun found => Step.Keeps.bind (Step.keeps_modify fun _ h => h) fun _ => ?_
  exact (Step.keeps_modify fun _ h => h.dropGraph).bind fun _ => Step.keeps_pure _

end Ended

theorem runStage_of_ended (hended : c.state.isEnded = true) (files : FileTree) (request : Network.StageRequest) :
    runStage files request c = .ok (.aborted .ended) { c with aborted := true } := by
  unfold runStage
  rw [Step.bind_ok (x := modify _) rfl, Step.bind_ok (x := get) rfl, if_pos hended]
  rfl

/-- A controller that has ended stays so, and leaves the service alone. -/
theorem keeps_call_of_ended {service : σ} (call : PublicCall) :
    Step.Keeps (EndedWith service) call.onController := by
  cases call with
  | addGroup units roles inputFunctions outputFunctions label =>
    exact (keeps_changeTopology _).bind fun _ => Step.keeps_pure _
  | addLink source destination label => exact (keeps_changeTopology _).bind fun _ => Step.keeps_pure _
  | setGroupParams id params => exact keeps_setGroupParams id params
  | setParams params => exact Step.keeps_modify fun c h => h.setParams params
  | setWeightsFile path => exact Step.keeps_modify fun c h => h.setWeightsFile path
  | setExamplesFile files path => exact (keeps_setExamplesFile files path).bind fun _ => Step.keeps_pure _
  | attachExampleSet s => exact Step.keeps_modify fun c h => h.dropGraph
  | setRecording recording => exact Step.keeps_modify fun c h => h.setRecording recording
  | stage call =>
    intro c h
    have hstage : call.onController c = .ok (.aborted .ended) { c with aborted := true } :=
      runStage_of_ended h.isEnded call.files (call.request c.settings)
    rw [PublicCall.onController, Step.after_bind_pure, Step.after_ok hstage]
    exact h
  | finish =>
    intro c h
    have hfinish : finish c = .ok () c := by
      unfold finish
      rw [Step.bind_ok (x := get) rfl, h.isEnded]
      rfl
    rw [PublicCall.onController, Step.after_ok hfinish]
    exact h

theorem requests_of_ended (hended : c.state = .ended) (call : PublicCall) : c.requests call = [] := by
  have h : EndedWith ⟨c.service, []⟩ (Step.after call.onController c.logged) :=
    keeps_call_of_ended call c.logged ⟨hended, rfl⟩
  rw [requests, h.2]

/-- A controller that has not ended asks the service to stop. -/
theorem requests_finish (hrunning : c.state.isEnded = false) : c.requests .finish = [.stop] := by
  have hfinish : finish c.logged = (onService PlacementService.stop >>= fun _ =>
      modify fun c => { c with state := .ended }) c.logged := by
    unfold finish
    rw [Step.bind_ok (x := get) rfl, show c.logged.state.isEnded = false from hrunning]
    rfl
  unfold requests PublicCall.onController
  rw [Step.after_congr hfinish]
  cases hstop : (PlacementService.stop : Step σ Unit) c.service with
  | ok u service =>
    have h : onService PlacementService.stop c.logged = .ok u { c.logged with service := ⟨service, [.stop]⟩ } :=
      Step.onPart_ok (Logged.log_ok hstop [])
    rw [Step.after_bind_ok _ h]
    rfl
  | error e service =>
    have h : onService PlacementService.stop c.logged = .error e { c.logged with service := ⟨service, [.stop]⟩ } :=
      Step.onPart_error (Logged.log_error hstop [])
    rw [Step.after_bind_error _ h]

theorem ended_afterUse (hended : c.state = .ended) (used : NetworkUse σ) : (c.afterUse used).state = .ended := by
  cases used with
  | call call => exact (keeps_call_of_ended call c ⟨hended, rfl⟩).1
  | service change => exact hended

theorem ended_afterUses (hended : c.state = .ended) (uses : List (NetworkUse σ)) :
    (c.afterUses uses).state = .ended := by
  induction uses generalizing c with
  | nil => exact hended
  | cons used rest ih => exact ih (ended_afterUse hended used)

end Controller

namespace Network

variable {σ : Type} [PlacementService σ] {n : Network σ}

/-- A controller goes where its network goes and keeps its invariant, whatever calls are made and
whatever becomes of the service in between, and however calls end. Once it has ended it stays so,
and no call asks anything of the service. -/
theorem controller_spec {settings : Settings} {configuration : Configuration} {service : σ}
    (hmake : Network.make settings configuration service = .ok n) (uses : List (NetworkUse σ)) :
    Controller.make settings configuration service = .ok n.controller ∧
      n.controller.afterUses uses = (n.afterUses uses).controller ∧
      (n.controller.afterUses uses).Invariant ∧
      ((n.controller.afterUses uses).state = .ended → ∀ more,
        ((n.controller.afterUses uses).afterUses more).state = .ended ∧
          ∀ call, ((n.controller.afterUses uses).afterUses more).requests call = []) := by
  have hsame := controller_afterUses n uses
  refine ⟨?_, hsame, ?_, fun hended more => ?_⟩
  · rw [controller_make, hmake]
    rfl
  · rw [hsame]
    exact ((consistent_of_make hmake).afterUses uses).invariant
  · have hlater := Controller.ended_afterUses hended more
    exact ⟨hlater, fun call => Controller.requests_of_ended hlater call⟩

/-- A stage of a network with an output group, and then the end. -/
def oneStage : List NetworkCall := outputCalls oneEvent ++ [.stage (.test outputFiles none true)]

def oneStageAndFinish : List NetworkCall := oneStage ++ [.finish]

/-- After the stage there is a graph to run on, with weights for the link from the bias, and the
service can be stopped. After the end nothing is asked of it. -/
theorem controller_spec_one_stage : ∃ n, Network.make {} {} ({ keySpace := 65536 } : Loopback) = .ok n ∧
    (n.controller.afterUses (oneStage.map NetworkCall.use)).Ready ∧
    (∃ l ∈ (n.controller.afterUses (oneStage.map NetworkCall.use)).topology.links,
      (n.controller.afterUses (oneStage.map NetworkCall.use)).topology.HasBlock l) ∧
    (n.controller.afterUses (oneStage.map NetworkCall.use)).requests .finish = [.stop] ∧
    ∀ call, (n.controller.afterUses (oneStageAndFinish.map NetworkCall.use)).requests call = [] := by
  obtain ⟨n, hmake, hstage⟩ : ∃ n, Network.make {} {} ({ keySpace := 65536 } : Loopback) = .ok n ∧
      (fun c : Controller Loopback => (c.state, c.topology.links.isEmpty))
        (n.controller.afterUses (oneStage.map NetworkCall.use)) = (.graphBuilt, false) :=
    ⟨_, rfl, by decide +kernel⟩
  obtain ⟨hbuilt, hlinks⟩ := Prod.mk.inj hstage
  obtain ⟨_, _, hinvariant, _⟩ := controller_spec hmake (oneStage.map NetworkCall.use)
  obtain ⟨_, hsame, _, hlast⟩ := controller_spec hmake (oneStageAndFinish.map NetworkCall.use)
  have hready := hinvariant.graphBuilt hbuilt
  obtain ⟨l, hl⟩ := List.exists_mem_of_ne_nil _ (List.isEmpty_eq_false_iff.1 hlinks)
  have hended : (n.controller.afterUses (oneStageAndFinish.map NetworkCall.use)).state = .ended := by
    rw [hsame, afterUses_use, oneStageAndFinish, afterCalls, List.foldl_append]
    show (Step.after finish (n.afterCalls oneStage)).state = .ended
    obtain ⟨hended, h⟩ | ⟨_, h⟩ := finish_cases (n.afterCalls oneStage)
    · rw [Step.after_ok h, state, if_pos hended]
    · rw [Step.after_ok h]
      rfl
  refine ⟨n, hmake, hready, ⟨l, hl, hready.blocks l hl⟩, Controller.requests_finish ?_, (hlast hended []).2⟩
  rw [hbuilt]
  rfl

end Network

end PerceptronMesh

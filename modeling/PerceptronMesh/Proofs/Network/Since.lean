import PerceptronMesh.Proofs.Network.Recording
import PerceptronMesh.Proofs.Network.Refused
import PerceptronMesh.Proofs.Network.Traffic

/-!
What a stage writes to a loaded graph, told from the calls since the last stage that was completed.
The marks of a graph are that history: a region is stale exactly if one of those calls changed what
is in it, and the stage that is completed next writes the stale regions and no others.
-/

namespace PerceptronMesh

namespace NetworkCall

/-- Whether the call names a weights file. -/
def namesWeights : NetworkCall → Bool
  | .setWeightsFile _ => true
  | _ => false

/-- Whether the call changes parameters that units hold. Values are compared as numbers, so that
one that is not a number differs from itself. -/
def changesParams (n : Network Loopback) : NetworkCall → Bool
  | .setParams params =>
    let later := n.settings.apply params
    !later.learningRate.eq n.settings.learningRate || !later.weightDecay.eq n.settings.weightDecay ||
      !later.momentum.eq n.settings.momentum ||
      !Numeric.Binary64.eqOption later.trainCriterion n.settings.trainCriterion ||
      !Numeric.Binary64.eqOption later.testCriterion n.settings.testCriterion
  | .setGroupParams id params => !n.ended && (n.topology.group? id).any fun g => !g.params.eq params
  | _ => false

end NetworkCall

namespace Network

/-- Calls, each with the network that it found. -/
abbrev History := List (Network Loopback × NetworkCall)

namespace History

def namesWeights (since : History) : Bool := since.any fun (_, call) => call.namesWeights

def changesParams (since : History) : Bool := since.any fun (n, call) => call.changesParams n

end History

variable {n later : Network Loopback} {since : History}

/-- The calls since the last completed stage, with one more. -/
def sinceAfter (n : Network Loopback) (since : History) (call : NetworkCall) : History :=
  match call with
  | .stage stage =>
    match stage.run n with
    | .ok (.completed _) _ => []
    | _ => since ++ [(n, call)]
  | _ => since ++ [(n, call)]

def sinceCompleted (n : Network Loopback) (since : History) : List NetworkCall → History
  | [] => since
  | call :: rest => (n.afterCall call).sinceCompleted (n.sinceAfter since call) rest

theorem sinceAfter_of_completed {call : StageCall} {report : StageReport}
    (h : call.run n = .ok (.completed report) later) : n.sinceAfter since (.stage call) = [] := by
  simp only [sinceAfter, h]

theorem sinceAfter_of_not_completed {call : StageCall}
    (h : ∀ report later, call.run n ≠ .ok (.completed report) later) :
    n.sinceAfter since (.stage call) = since ++ [(n, .stage call)] := by
  unfold sinceAfter
  dsimp only
  split
  · rename_i report later hrun
    exact absurd hrun (h report later)
  · rfl

theorem changesParams_setParams (n : Network Loopback) (params : NetworkParams) :
    (NetworkCall.setParams params).changesParams n = (n.settings.apply params).unitParamsDiffer n.settings := by
  simp only [NetworkCall.changesParams, Settings.unitParamsDiffer, Bool.not_and]

/-- The marks of a graph are what the calls since the last completed stage changed. -/
def Marked (n : Network Loopback) (since : History) : Prop :=
  n.ended = false → ∀ {graph : BuiltGraph}, n.built = some graph →
    graph.weightsStale = since.namesWeights ∧ graph.coresStale = since.changesParams

namespace Marked

theorem of_no_graph (hbuilt : n.built = none) : n.Marked since := by
  intro _ graph hgraph
  cases hbuilt.symm.trans hgraph

theorem of_ended (hended : n.ended = true) : n.Marked since := by
  intro hrunning
  cases hended.symm.trans hrunning

/-- A call marks what it changes. -/
theorem append (hn : n.Marked since) (call : NetworkCall) (hended : later.ended = n.ended)
    (hbuilt : later.built = n.built.map fun graph => { graph with
      weightsStale := graph.weightsStale || call.namesWeights
      coresStale := graph.coresStale || call.changesParams n }) :
    later.Marked (since ++ [(n, call)]) := by
  intro hrunning graph hgraph
  rw [hbuilt, Option.map_eq_some_iff] at hgraph
  obtain ⟨old, hold, rfl⟩ := hgraph
  obtain ⟨hweights, hcores⟩ := hn (hended.symm.trans hrunning) hold
  simp [History.namesWeights, History.changesParams, hweights, hcores]

theorem append_nothing (hn : n.Marked since) {call : NetworkCall} (hweights : call.namesWeights = false)
    (hparams : call.changesParams n = false) (hended : later.ended = n.ended) (hbuilt : later.built = n.built) :
    later.Marked (since ++ [(n, call)]) := by
  refine hn.append call hended ?_
  rw [hbuilt, hweights, hparams]
  simp

/-- A mark on the Core regions, made or not as they change. -/
theorem append_cores (hn : n.Marked since) {call : NetworkCall} (hweights : call.namesWeights = false)
    (hparams : call.changesParams n = true) {middle : Network Loopback} (hended : middle.ended = n.ended)
    (hbuilt : middle.built = n.built) : middle.markCoresStale.Marked (since ++ [(n, call)]) := by
  unfold markCoresStale
  by_cases hstopped : middle.ended
  · rw [if_pos hstopped]
    exact of_ended hstopped
  · rw [if_neg hstopped]
    refine hn.append call hended ?_
    show middle.built.map _ = _
    rw [hbuilt, hweights, hparams]
    simp

/-- Group parameters mark Core regions exactly if they are accepted and differ. -/
theorem setGroupParams (hn : n.Marked since) (id : GroupId) (params : GroupParams) :
    (n.afterCall (.setGroupParams id params)).Marked (since ++ [(n, .setGroupParams id params)]) := by
  show (n.orKeep (n.setGroupParams id params) fun later => later).Marked _
  obtain ⟨hended, h⟩ | ⟨_, hmissing, h⟩ | ⟨g, hended, hgroup, h⟩ := n.setGroupParams_cases id params
  · rw [h]
    exact of_ended hended
  · rw [h]
    exact hn.append_nothing rfl (by simp [NetworkCall.changesParams, hmissing]) rfl rfl
  · have hchanges : (NetworkCall.setGroupParams id params).changesParams n = !g.params.eq params := by
      simp [NetworkCall.changesParams, hended, hgroup]
    rw [h]
    by_cases hsame : g.params.eq params
    · rw [if_pos hsame]
      exact hn.append_nothing rfl (by simp [hchanges, hsame]) rfl rfl
    · rw [if_neg hsame]
      exact hn.append_cores rfl (by simp [hchanges, hsame]) rfl rfl

theorem setParams (hn : n.Marked since) (params : NetworkParams) :
    (n.setParams params).Marked (since ++ [(n, .setParams params)]) := by
  have hchanges := n.changesParams_setParams params
  unfold Network.setParams
  dsimp only
  by_cases hdiffer : (n.settings.apply params).unitParamsDiffer n.settings
  · rw [if_pos hdiffer]
    exact hn.append_cores rfl (hchanges.trans hdiffer) rfl rfl
  · rw [if_neg hdiffer]
    exact hn.append_nothing rfl (hchanges.trans (Bool.eq_false_iff.2 hdiffer)) rfl rfl

theorem setWeightsFile (hn : n.Marked since) (path : Path) :
    (n.setWeightsFile path).Marked (since ++ [(n, .setWeightsFile path)]) := by
  cases hended : n.ended with
  | true => exact of_ended hended
  | false =>
    refine hn.append _ rfl ?_
    simp [Network.setWeightsFile, hended, NetworkCall.namesWeights, NetworkCall.changesParams]

end Marked

/-- Every call marks what it changes, and a completed stage takes the marks away. -/
theorem Marked.afterCall (hn : n.Marked since) (hsound : n.Sound) (call : NetworkCall) :
    (n.afterCall call).Marked (n.sinceAfter since call) := by
  cases call with
  | addGroup units roles inputFunctions outputFunctions label =>
    refine orKeep_of (P := fun later => later.Marked _) (hn.append_nothing rfl rfl rfl rfl) fun found h => ?_
    obtain ⟨_, _, hlater⟩ := addGroup_eq_ok h
    rw [hlater]
    exact of_no_graph rfl
  | addLink source destination label =>
    refine orKeep_of (P := fun later => later.Marked _) (hn.append_nothing rfl rfl rfl rfl) fun found h => ?_
    obtain ⟨_, _, hlater⟩ := addLink_eq_ok h
    rw [hlater]
    exact of_no_graph rfl
  | setGroupParams id params => exact hn.setGroupParams id params
  | setParams params => exact hn.setParams params
  | setWeightsFile path => exact hn.setWeightsFile path
  | setExamplesFile files path =>
    show (Step.after (Network.setExamplesFile files path) n).Marked _
    obtain ⟨e, _, h⟩ | ⟨count, read, _, h⟩ := setExamplesFile_cases n files path
    · rw [Step.after_error h]
      exact hn.append_nothing rfl rfl rfl rfl
    · rw [Step.after_ok h]
      exact of_no_graph rfl
  | attachExampleSet s => exact of_no_graph rfl
  | setRecording recording =>
    show (n.setRecording recording).Marked _
    unfold Network.setRecording
    split
    · exact hn.append_nothing rfl rfl rfl rfl
    · exact of_no_graph rfl
  | stage call =>
    show (Step.after call.run n).Marked (n.sinceAfter since (.stage call))
    obtain ⟨report, later, h⟩ | ⟨hnot, _, _, _, _, hafter, _⟩ := hsound.completed_or_kept call
    · obtain ⟨graph, _, hbuilt, hprepared, _⟩ := (hsound.recorded_of_completed h).1.ready
      rw [Step.after_ok h, sinceAfter_of_completed h]
      intro _ other hother
      cases hbuilt.symm.trans hother
      exact hprepared.fresh
    · rw [hafter, sinceAfter_of_not_completed hnot]
      exact hn.append_nothing rfl rfl rfl rfl
  | finish =>
    show (Step.after Network.finish n).Marked _
    obtain ⟨hended, h⟩ | ⟨_, h⟩ := finish_cases n
    · rw [Step.after_ok h]
      exact of_ended hended
    · rw [Step.after_ok h]
      exact of_ended rfl
  | pushTestResults results => exact hn.append_nothing rfl rfl rfl rfl

theorem Marked.afterCalls (hn : n.Marked since) (hsound : n.Sound) (calls : List NetworkCall) :
    (n.afterCalls calls).Marked (n.sinceCompleted since calls) := by
  induction calls generalizing n since with
  | nil => exact hn
  | cons call rest ih => exact ih (hn.afterCall hsound call) (hsound.afterCall call)

/-- What a completed stage asks of the service. Without a graph one is placed and loaded, and no
region is written. With one no graph is placed or loaded; Weights regions are written exactly if a
weights file was named since the last completed stage, Core regions exactly if parameters changed
since then, and Stage regions always. -/
theorem completed_traffic {settings : Settings} {configuration : Configuration} {keySpace : Nat}
    (hmake : Network.make settings configuration { keySpace } = .ok n) (calls : List NetworkCall)
    {call : StageCall} {report : StageReport}
    (h : call.run (n.afterCalls calls) = .ok (.completed report) later) :
    ∃ requests,
      (∀ past, call.runOn ((n.afterCalls calls).logged past) =
        .ok (.completed report) (later.logged (past ++ requests))) ∧
      later.service.updated = (n.afterCalls calls).service.updated ++ requests.filterMap ServiceRequest.update? ∧
      later.service.placeCalls = (n.afterCalls calls).service.placeCalls + requests.count .place ∧
      ((n.afterCalls calls).built = none → requests = [.place, .load, .run]) ∧
      ∀ {graph : BuiltGraph}, (n.afterCalls calls).built = some graph →
        requests = refreshRequests graph (n.sinceCompleted [] calls).namesWeights
          (n.sinceCompleted [] calls).changesParams ++ [.run] := by
  have hn : n.Reachable := .make hmake
  have hmarked : n.Marked [] := by
    obtain ⟨_, _, _, rfl⟩ := make_eq_ok hmake
    exact .of_no_graph rfl
  have hrunning : (n.afterCalls calls).ended = false := by
    obtain ⟨_, hended, hrun⟩ | ⟨_, _, _, _, _, hrun⟩ | ⟨_, hpasses, _⟩ :=
      runStage_cases (n.afterCalls calls) call.files (call.request (n.afterCalls calls).settings)
    · cases h.symm.trans ((call.run_eq _).trans hrun)
    · cases h.symm.trans ((call.run_eq _).trans hrun)
    · exact hpasses.1
  obtain ⟨hlogged, hgranted⟩ := traffic_completed h
  refine ⟨_, hlogged, hgranted.updated_eq, hgranted.placeCalls_eq, ?_, ?_⟩
  · intro hbuilt
    rw [prepareRequests, hbuilt]
    rfl
  · intro graph hbuilt
    obtain ⟨hweights, hcores⟩ := hmarked.afterCalls hn.sound calls hrunning hbuilt
    rw [← hweights, ← hcores, prepareRequests, hbuilt]

/-- Calls that set a momentum that is not a number, which it was already after the last completed
stage. -/
def nanCalls : List NetworkCall :=
  biasCalls ++ [.setParams { momentum := some .nan }, .stage (.test noLinkFiles none true),
    .setParams { momentum := some .nan }]

/-- A value that is not a number counts as changed, and the weights that did not change are left. -/
theorem completed_traffic_nan : ∃ n, Network.make {} {} ({ keySpace := 65536 } : Loopback) = .ok n ∧
    ∃ (report : StageReport) (later : Network Loopback),
      (StageCall.train noLinkFiles none none).runOn ((n.afterCalls nanCalls).logged []) =
        .ok (.completed report) (later.logged
          [.updateRegion (.threshold 0 0) .core, .updateRegion (.weight 0 0 0 0) .core,
            .updateRegion (.input 0 0) .stage, .updateRegion (.threshold 0 0) .stage,
            .updateRegion (.sum 0 0 0) .stage, .updateRegion (.weight 0 0 0 0) .stage, .run]) := by
  obtain ⟨n, hmake, hpasses, hkeys, hrefresh⟩ : ∃ n,
      Network.make {} {} ({ keySpace := 65536 } : Loopback) = .ok n ∧
      (n.afterCalls nanCalls).Passes noLinkFiles ∧ ¬(n.afterCalls nanCalls).LacksKeys ∧
      (n.afterCalls nanCalls).built.map (fun graph => refreshRequests graph
        (n.sinceCompleted [] nanCalls).namesWeights (n.sinceCompleted [] nanCalls).changesParams) =
        some [.updateRegion (.threshold 0 0) .core, .updateRegion (.weight 0 0 0 0) .core,
          .updateRegion (.input 0 0) .stage, .updateRegion (.threshold 0 0) .stage,
          .updateRegion (.sum 0 0 0) .stage, .updateRegion (.weight 0 0 0 0) .stage] :=
    ⟨_, rfl, by decide +kernel, by decide +kernel, by decide +kernel⟩
  obtain ⟨graph, hbuilt, hrequests⟩ := Option.map_eq_some_iff.1 hrefresh
  have hn : (n.afterCalls nanCalls).Reachable := Reachable.afterCalls (.make hmake) nanCalls
  obtain ⟨report, later, h⟩ := hn.sound.exists_completed (.train noLinkFiles none none) hpasses hkeys
  obtain ⟨_, hlogged, _, _, _, hasks⟩ := completed_traffic hmake nanCalls h
  have hlog := hlogged []
  rw [hasks hbuilt, hrequests] at hlog
  exact ⟨n, hmake, report, later, hlog⟩

end Network

end PerceptronMesh

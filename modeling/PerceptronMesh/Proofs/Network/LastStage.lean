import PerceptronMesh.Proofs.Network.Aborted
import PerceptronMesh.Proofs.Network.Recording

/-!
The last stage of a network, told from its calls. A network is marked aborted as its last stage call
was, and keeps what the last completed stage recorded until the graph of that stage is dropped. Until
then the recording, the frame of the topology and the examples stay as they are.
-/

namespace PerceptronMesh

namespace Network

variable {n later : Network Loopback}

/-- What calls tell of the last stage: whether it was aborted, and what was recorded by the last one
that was completed on a graph that is kept. -/
structure LastStage where
  aborted : Bool := false
  recorded : Option RecordedOutputs := none

def lastStage (n : Network Loopback) : LastStage := ⟨n.aborted, n.lastOutputs⟩

/-- A stage call is aborted, completed or fails. Any other call tells of no stage, but may drop the
graph. -/
def lastStageAfter (n : Network Loopback) (last : LastStage) (call : NetworkCall) : LastStage :=
  match call with
  | .stage stage =>
    match stage.run n with
    | .ok (.completed report) _ => ⟨false, report.outputs⟩
    | .ok (.aborted _) _ => { last with aborted := true }
    | .error _ _ => { last with aborted := false }
  | _ => if (n.afterCall call).built.isNone then { last with recorded := none } else last

def lastStageAfterCalls (n : Network Loopback) (last : LastStage) : List NetworkCall → LastStage
  | [] => last
  | call :: rest => (n.afterCall call).lastStageAfterCalls (n.lastStageAfter last call) rest

/-- What a network keeps of a recording while its graph is kept: the recording, and all that the
recording agrees with. -/
structure KeepsRecording (n later : Network Loopback) : Prop where
  lastOutputs_eq : later.lastOutputs = n.lastOutputs
  frame_eq : later.topology.frame = n.topology.frame
  examples_eq : n.exampleSet ≠ none → later.exampleSet.map (·.examples) = n.exampleSet.map (·.examples)

theorem keepsRecording_refl (n : Network Loopback) : n.KeepsRecording n := ⟨rfl, rfl, fun _ => rfl⟩

theorem lastOutputs_of_no_graph (h : n.built = none) : n.lastOutputs = none := by
  rw [lastOutputs, h]
  rfl

namespace KeepsRecording

/-- Marks on a graph are made beside its recording. -/
theorem mark (h : n.KeepsRecording later) {change : BuiltGraph → BuiltGraph}
    (hchange : ∀ graph, (change graph).lastOutputs = graph.lastOutputs) :
    n.KeepsRecording { later with built := later.built.map change } := by
  refine ⟨Eq.trans ?_ h.lastOutputs_eq, h.frame_eq, h.examples_eq⟩
  rw [lastOutputs, lastOutputs]
  cases later.built with
  | none => rfl
  | some graph => exact hchange graph

theorem markCoresStale (h : n.KeepsRecording later) : n.KeepsRecording later.markCoresStale := by
  unfold Network.markCoresStale
  split
  · exact h
  · exact h.mark fun _ => rfl

theorem setParams (n : Network Loopback) (params : NetworkParams) : n.KeepsRecording (n.setParams params) := by
  unfold Network.setParams
  dsimp only
  split
  · exact markCoresStale ⟨rfl, rfl, fun _ => rfl⟩
  · exact ⟨rfl, rfl, fun _ => rfl⟩

theorem setWeightsFile (n : Network Loopback) (path : Path) : n.KeepsRecording (n.setWeightsFile path) := by
  have hnamed : n.KeepsRecording { n with weightsFile := some path, weightsLoaded := false } :=
    ⟨rfl, rfl, fun _ => rfl⟩
  unfold Network.setWeightsFile
  split
  · exact hnamed
  · exact hnamed.mark fun _ => rfl

end KeepsRecording

/-- A call drops the graph, whatever it adds to the topology, or keeps the recording. -/
inductive DropsOrKeeps (n later : Network Loopback) : Prop
  | drops (built_eq : later.built = none) (chains : n.topology.ChainsOutputs → later.topology.ChainsOutputs)
  | keeps (h : n.KeepsRecording later)

theorem dropsOrKeeps_afterCall (n : Network Loopback) {call : NetworkCall} (hother : ∀ stage, call ≠ .stage stage) :
    n.DropsOrKeeps (n.afterCall call) := by
  have hrefused : n.DropsOrKeeps n := .keeps n.keepsRecording_refl
  cases call with
  | stage call => exact absurd rfl (hother call)
  | addGroup units roles inputFunctions outputFunctions label =>
    refine orKeep_of hrefused fun found h => ?_
    obtain ⟨grown, hadd, hlater⟩ := addGroup_eq_ok h
    rw [hlater]
    exact .drops rfl fun hchains => hchains.addGroup hadd
  | addLink source destination label =>
    refine orKeep_of hrefused fun found h => ?_
    obtain ⟨linked, hlink, hlater⟩ := addLink_eq_ok h
    rw [hlater]
    exact .drops rfl fun hchains => hchains.addLink hlink
  | setGroupParams id params =>
    refine orKeep_of hrefused fun later h => ?_
    obtain rfl | ⟨_, rfl⟩ := setGroupParams_eq_ok h
    · exact hrefused
    · exact .keeps (.markCoresStale ⟨rfl, n.topology.frame_setParams id params, fun _ => rfl⟩)
  | setParams params => exact .keeps (.setParams n params)
  | setWeightsFile path => exact .keeps (.setWeightsFile n path)
  | setExamplesFile files path =>
    show n.DropsOrKeeps (Step.after (Network.setExamplesFile files path) n)
    obtain ⟨_, _, h⟩ | ⟨_, _, _, h⟩ := setExamplesFile_cases n files path
    · rw [Step.after_error h]
      refine .keeps ⟨rfl, rfl, fun hset => ?_⟩
      obtain ⟨s, hs⟩ := Option.ne_none_iff_exists'.1 hset
      simp [exampleSetFor, hs]
    · rw [Step.after_ok h]
      exact .drops rfl fun hchains => hchains
  | attachExampleSet s => exact .drops rfl fun hchains => hchains
  | setRecording recording =>
    show n.DropsOrKeeps (n.setRecording recording)
    unfold Network.setRecording
    split
    · exact hrefused
    · exact .drops rfl fun hchains => hchains
  | finish =>
    show n.DropsOrKeeps (Step.after Network.finish n)
    obtain ⟨_, h⟩ | ⟨_, h⟩ := finish_cases n
    · rw [Step.after_ok h]
      exact hrefused
    · rw [Step.after_ok h]
      exact .keeps ⟨rfl, rfl, fun _ => rfl⟩
  | pushTestResults results => exact .keeps ⟨rfl, rfl, fun _ => rfl⟩

/-- The graph of a completed stage has what the stage recorded. -/
theorem lastOutputs_of_runChecked {request : StageRequest} {report : StageReport}
    (h : runChecked request n = .ok (.completed report) later) (hbuilt : later.built ≠ none) :
    later.lastOutputs = report.outputs := by
  unfold runChecked at h
  obtain ⟨_, _, _, h⟩ := Step.bind_eq_ok_iff.1 h
  obtain ⟨_, _, _, h⟩ := Step.bind_eq_ok_iff.1 h
  obtain ⟨_, ran, _, h⟩ := Step.bind_eq_ok_iff.1 h
  cases h
  obtain ⟨graph, hgraph⟩ := Option.ne_none_iff_exists'.1 hbuilt
  obtain ⟨_, _, rfl⟩ := Option.map_eq_some_iff.1 hgraph
  rw [lastOutputs, hgraph]
  rfl

/-- A stage is completed and leaves what it recorded, or is aborted or fails and keeps what was
recorded before. -/
theorem Sound.recording_cases (hn : n.Sound) (call : StageCall) :
    (∃ report later, call.run n = .ok (.completed report) later ∧ later.lastStage = ⟨false, report.outputs⟩ ∧
        later.recording = n.recording) ∨
      (∃ reason later, call.run n = .ok (.aborted reason) later ∧ later.aborted = true ∧ n.KeepsRecording later) ∨
      ∃ e later, call.run n = .error e later ∧ later.aborted = false ∧ n.KeepsRecording later := by
  obtain ⟨_, reason, checked, hchecked, hrun⟩ | ⟨checked, hpasses, hchecked, hfit, hrun⟩ := hn.checked_cases call
  all_goals
    have hframe := hchecked.frame_eq
    have hexamples := hchecked.examples_eq
    have hsound := hchecked.sound
    obtain ⟨topology, exampleSet, weightsLoaded, rfl⟩ := hchecked.changed
  · exact .inr (.inl ⟨reason, _, hrun, rfl, rfl, hframe, fun _ => hexamples⟩)
  · obtain ⟨_, report, later, hcompleted, _, _, _, hrecorded⟩ | ⟨_, name, hfault⟩ :=
      hsound.runChecked_cases hpasses.1 hfit (call.request n.settings)
    · obtain ⟨_, _, hbuilt, _⟩ := hrecorded.ready
      obtain ⟨haborted, hrecording⟩ := options_after_runChecked (call.request n.settings)
        { n with aborted := false, topology, exampleSet, weightsLoaded }
      rw [Step.after_ok hcompleted] at haborted hrecording
      have houtputs := lastOutputs_of_runChecked hcompleted (by simp [hbuilt])
      exact .inl ⟨report, later, hrun.trans hcompleted, by rw [lastStage, haborted, houtputs], hrecording⟩
    · exact .inr (.inr ⟨_, _, hrun.trans hfault, rfl, rfl, hframe, fun _ => hexamples⟩)

/-- The marks of a network tell what its calls tell. -/
theorem Sound.lastStage_afterCall (hn : n.Sound) (call : NetworkCall) :
    (n.afterCall call).lastStage = n.lastStageAfter n.lastStage call := by
  by_cases hstage : ∃ stage, call = .stage stage
  · obtain ⟨call, rfl⟩ := hstage
    show (Step.after call.run n).lastStage = _
    obtain ⟨report, later, h, hlast, _⟩ | ⟨reason, later, h, haborted, hkeeps⟩ | ⟨e, later, h, haborted, hkeeps⟩ :=
      hn.recording_cases call
    · rw [Step.after_ok h, hlast]
      simp only [lastStageAfter, h]
    · rw [Step.after_ok h, lastStage, haborted, hkeeps.lastOutputs_eq]
      simp only [lastStageAfter, h]
      rfl
    · rw [Step.after_error h, lastStage, haborted, hkeeps.lastOutputs_eq]
      simp only [lastStageAfter, h]
      rfl
  · have hother : ∀ stage, call ≠ .stage stage := fun stage hcall => hstage ⟨stage, hcall⟩
    have hafter : n.lastStageAfter n.lastStage call =
        if (n.afterCall call).built.isNone then { n.lastStage with recorded := none } else n.lastStage := by
      cases call with
      | stage call => exact absurd rfl (hother call)
      | _ => rfl
    rw [hafter, lastStage, aborted_afterCall n hother]
    cases hbuilt : (n.afterCall call).built with
    | none =>
      rw [lastOutputs_of_no_graph hbuilt]
      rfl
    | some graph =>
      obtain ⟨hdropped, _⟩ | hkeeps := n.dropsOrKeeps_afterCall hother
      · cases hbuilt.symm.trans hdropped
      · rw [hkeeps.lastOutputs_eq]
        rfl

theorem Sound.lastStage_afterCalls (hn : n.Sound) (calls : List NetworkCall) :
    (n.afterCalls calls).lastStage = n.lastStageAfterCalls n.lastStage calls := by
  induction calls generalizing n with
  | nil => rfl
  | cons call rest ih =>
    rw [lastStageAfterCalls, ← hn.lastStage_afterCall call]
    exact ih (hn.afterCall call)

theorem lastStage_of_make {settings : Settings} {configuration : Configuration} {keySpace : Nat}
    (h : Network.make settings configuration ({ keySpace } : Loopback) = .ok n) (calls : List NetworkCall) :
    (n.afterCalls calls).lastStage = n.lastStageAfterCalls {} calls := by
  rw [(Reachable.make h).sound.lastStage_afterCalls]
  obtain ⟨_, _, _, rfl⟩ := make_eq_ok h
  rfl

end Network

end PerceptronMesh

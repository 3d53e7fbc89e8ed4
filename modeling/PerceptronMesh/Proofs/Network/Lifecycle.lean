import PerceptronMesh.Proofs.Network.Uses
import PerceptronMesh.Proofs.Weights.Blocks

/-!
The life of a network, over any service and whatever is done to the service in between. A graph is
kept only as long as it is the one that the topology compiles to, with examples and weights to
build it from; the fields of the controller agree on whether there is one.
-/

namespace PerceptronMesh

namespace Network

variable {σ : Type} {n later : Network σ} {graph : BuiltGraph}

/-- A graph that a network may keep. -/
structure Fits (n : Network σ) (graph : BuiltGraph) : Prop where
  compile_eq : compile n.topology n.limits = .ok graph.compiled
  sizes : n.topology.oversizedGroups n.limits.maxGroupUnits = []
  weighted : n.topology.Weighted
  read : n.weightsLoaded = true ∨ graph.weightsStale = true
  compiled : ∃ examples, n.exampleSet.bind (·.compiled) = some examples

/-- The invariant. It says nothing of what the service holds. -/
structure Consistent (n : Network σ) : Prop where
  topology : n.topology.Sound
  filled : n.topology.Filled
  linked : n.topology.Linked
  weighted : n.weightsLoaded = true → n.topology.Weighted
  fits : n.ended = false → ∀ {graph : BuiltGraph}, n.built = some graph → n.Fits graph

theorem consistent_of_make {settings : Settings} {configuration : Configuration} {service : σ}
    (h : Network.make settings configuration service = .ok n) : n.Consistent := by
  obtain ⟨_, t, htopology, rfl⟩ := make_eq_ok h
  refine ⟨Topology.sound_of_make htopology, Topology.filled_of_make htopology,
    Topology.linked_of_make htopology, ?_, ?_⟩
  · intro hread
    cases hread
  · intro _ graph hbuilt
    cases hbuilt

namespace Consistent

theorem changeTopology {t : Topology} (ht : t.Sound) (hfilled : t.Filled) (hlinked : t.Linked) :
    (n.changeTopology t).Consistent := by
  refine ⟨ht, hfilled, hlinked, ?_, ?_⟩
  · intro hread
    cases hread
  · intro _ graph hbuilt
    cases hbuilt

variable (hn : n.Consistent)
include hn

theorem addGroup {units : Nat} {roles : Roles} {inputFunctions : Option (List InputFunction)}
    {outputFunctions : Option (List OutputFunction)} {label : Option String} {id : GroupId}
    (h : n.addGroup units roles inputFunctions outputFunctions label = .ok (id, later)) : later.Consistent := by
  obtain ⟨grown, hadd, rfl⟩ := addGroup_eq_ok h
  exact changeTopology (hn.topology.addGroup hadd) (hn.filled.addGroup hadd) (hn.linked.addGroup hadd)

theorem addLink {source destination : GroupId} {label : Option String} {id : Nat}
    (h : n.addLink source destination label = .ok (id, later)) : later.Consistent := by
  obtain ⟨linked, hlink, rfl⟩ := addLink_eq_ok h
  exact changeTopology (hn.topology.addLink hlink) (hn.filled.addLink hlink) (hn.linked.addLink hlink)

/-- Without a graph there is nothing to fit. -/
theorem dropGraph (recording : Recording) (exampleSet : Option ExampleSet) :
    { n.dropGraph with recording, exampleSet }.Consistent := by
  refine ⟨hn.topology, hn.filled, hn.linked, hn.weighted, ?_⟩
  intro _ graph hbuilt
  cases hbuilt

/-- A topology with the same frame has the same graph. -/
theorem withTopology {t : Topology} (hframe : t.frame = n.topology.frame) (hfilled : t.Filled)
    (hweighted : n.topology.Weighted → t.Weighted) : { n with topology := t }.Consistent := by
  refine ⟨hn.topology.of_frame hframe.symm, hfilled, hn.linked.of_frame hframe.symm,
    fun hread => hweighted (hn.weighted hread), ?_⟩
  intro hended graph hbuilt
  have hfits := hn.fits hended hbuilt
  exact ⟨(Topology.compile_of_frame hframe n.limits).trans hfits.compile_eq,
    Topology.oversizedGroups_of_frame hframe hfits.sizes, hweighted hfits.weighted, hfits.read, hfits.compiled⟩

theorem markCoresStale : n.markCoresStale.Consistent := by
  unfold Network.markCoresStale
  split
  · exact hn
  · refine ⟨hn.topology, hn.filled, hn.linked, hn.weighted, ?_⟩
    intro hended graph hbuilt
    obtain ⟨old, hold, rfl⟩ := Option.map_eq_some_iff.1 hbuilt
    have hfits := hn.fits hended hold
    exact ⟨hfits.compile_eq, hfits.sizes, hfits.weighted, hfits.read, hfits.compiled⟩

theorem setGroupParams {id : GroupId} {params : GroupParams} (h : n.setGroupParams id params = .ok later) :
    later.Consistent := by
  obtain rfl | ⟨_, rfl⟩ := setGroupParams_eq_ok h
  · exact hn
  · refine markCoresStale (hn.withTopology (n.topology.frame_setParams id params) ?_ ?_)
    · exact hn.filled.setParams id params
    · exact fun hweighted => hweighted.setParams id params

/-- Settings, history and service are no part of what fits. -/
theorem withHistory (settings : Settings) (stageId : UInt32) (aborted : Bool) (service : σ) :
    { n with settings, stageId, aborted, service }.Consistent := by
  refine ⟨hn.topology, hn.filled, hn.linked, hn.weighted, ?_⟩
  intro hended graph hbuilt
  have hfits := hn.fits hended hbuilt
  exact ⟨hfits.compile_eq, hfits.sizes, hfits.weighted, hfits.read, hfits.compiled⟩

theorem setParams (params : NetworkParams) : (n.setParams params).Consistent := by
  have hchanged := hn.withHistory (n.settings.apply params) n.stageId n.aborted n.service
  unfold Network.setParams
  dsimp only
  split
  · exact hchanged.markCoresStale
  · exact hchanged

/-- Weights that are still to be read leave the weights of a graph marked. -/
theorem setWeightsFile (path : Path) : (n.setWeightsFile path).Consistent := by
  refine ⟨hn.topology, hn.filled, hn.linked, ?_, ?_⟩
  · intro hread
    cases hread
  · intro hended graph hbuilt
    have hrunning : n.ended = false := hended
    simp only [Network.setWeightsFile, hrunning] at hbuilt
    obtain ⟨old, hold, rfl⟩ := Option.map_eq_some_iff.1 hbuilt
    have hfits := hn.fits hrunning hold
    exact ⟨hfits.compile_eq, hfits.sizes, hfits.weighted, .inr rfl, hfits.compiled⟩

theorem setRecording (recording : Recording) : (n.setRecording recording).Consistent := by
  unfold Network.setRecording
  split
  · exact hn
  · exact hn.dropGraph recording n.exampleSet

/-- A set that is made for a file can only be the first, which no graph was built with. -/
theorem withExampleSetFor (path : Path) : { n with exampleSet := some (n.exampleSetFor path) }.Consistent := by
  refine ⟨hn.topology, hn.filled, hn.linked, hn.weighted, ?_⟩
  intro hended graph hbuilt
  have hfits := hn.fits hended hbuilt
  refine ⟨hfits.compile_eq, hfits.sizes, hfits.weighted, hfits.read, ?_⟩
  obtain ⟨examples, hexamples⟩ := hfits.compiled
  obtain ⟨s, hs, hcompiled⟩ := Option.bind_eq_some_iff.1 hexamples
  refine ⟨examples, ?_⟩
  rw [exampleSetFor, hs]
  exact hcompiled

theorem weightsRead {files : FileTree} (h : n.WeightsRead files later) : later.Consistent := by
  obtain rfl | ⟨_, _, _, _, _, hread, rfl⟩ := h
  · exact hn
  obtain ⟨values, rfl⟩ := Topology.readWeightsFile_eq_ok hread
  have hweighted := Topology.weighted_withWeights hn.topology hn.linked values
  obtain ⟨ht, hfilled, hlinked, _, hgraph⟩ := hn.withTopology (n.topology.frame_withWeights values)
    (hn.filled.withWeights hn.topology values) fun _ => hweighted
  refine ⟨ht, hfilled, hlinked, fun _ => hweighted, ?_⟩
  intro hended graph hbuilt
  have hfits := hgraph hended hbuilt
  exact ⟨hfits.compile_eq, hfits.sizes, hweighted, .inl rfl, hfits.compiled⟩

theorem examplesCompiled (h : n.ExamplesCompiled later) : later.Consistent := by
  obtain rfl | ⟨s, compiled, t, _, hnone, hcompile, rfl⟩ := h
  · exact hn
  obtain ⟨_, _, _, hcompiled⟩ | ⟨_, rfl, columns, hcolumns, rfl⟩ := ExampleSet.compile_eq_ok hcompile
  · cases hnone.symm.trans hcompiled
  obtain ⟨hinputs, htargets⟩ := Binding.whole_columns hn.topology hcolumns
  obtain ⟨ht, hfilled, hlinked, hweighted, hgraph⟩ := hn.withTopology (n.topology.frame_withValues columns)
    (hn.filled.withValues hn.topology hinputs htargets) fun h => h.withValues columns
  refine ⟨ht, hfilled, hlinked, hweighted, ?_⟩
  intro hended graph hbuilt
  have hfits := hgraph hended hbuilt
  exact ⟨hfits.compile_eq, hfits.sizes, hfits.weighted, hfits.read, _, rfl⟩

end Consistent

theorem keeps_setExamplesFile (files : FileTree) (path : Path) :
    Step.Keeps (fun n : Network σ => n.Consistent) (setExamplesFile files path) := by
  intro n hn
  obtain ⟨_, _, h⟩ | ⟨_, read, _, h⟩ := setExamplesFile_cases n files path
  · rw [Step.after_error h]
    exact hn.withExampleSetFor path
  · rw [Step.after_ok h]
    exact hn.dropGraph n.recording (some read)

section Stage

/-- What the checks of a stage make sure of. -/
structure Cleared (n : Network σ) : Prop where
  sizes : n.topology.oversizedGroups n.limits.maxGroupUnits = []
  read : n.weightsLoaded = true
  compiled : ∃ examples, n.exampleSet.bind (·.compiled) = some examples

/-- The checks keep the invariant whether they pass or not, and clear the network if they pass. -/
theorem Consistent.preflight_cases (hn : n.Consistent) (files : FileTree) :
    (∃ later, preflight files n = .ok () later ∧ later.Consistent ∧ later.Cleared) ∨
      ∃ reason later, preflight files n = .error reason later ∧ later.Consistent := by
  obtain ⟨hnone, read, s, compiled, t, hread, hloaded, hs, hcompile, hcount, h⟩ |
      ⟨reason, read, later, _, hread, hlater, h⟩ := Network.preflight_cases n files
  · have hcompiled := examplesCompiled_of_compile hs hcompile
    obtain ⟨examples, hexamples, _⟩ := exists_compiled_of_compile hcompile hcount
    refine .inl ⟨_, h, (hn.weightsRead hread).examplesCompiled hcompiled, ?_, hloaded, examples, hexamples⟩
    have hsizes : n.topology.oversizedGroups n.limits.maxGroupUnits = [] := by
      rw [List.append_assoc, List.append_eq_nil_iff] at hnone
      exact List.map_eq_nil_iff.1 hnone.1
    obtain ⟨hlimits, hframe⟩ := hread.limits_and_frame
    obtain ⟨hlimitsLater, hframeLater⟩ := hcompiled.limits_and_frame
    rw [hlimitsLater, hlimits]
    exact Topology.oversizedGroups_of_frame (hframeLater.trans hframe) hsizes
  · exact .inr ⟨reason, later, h, (hn.weightsRead hread).examplesCompiled hlater⟩

/-- Networks that a stage may run on. -/
def Runnable (n : Network σ) : Prop := n.Consistent ∧ n.Cleared

theorem runnable_withService : IgnoresService fun n : Network σ => n.Runnable := fun service n h =>
  ⟨h.1.withHistory n.settings n.stageId n.aborted service, h.2.sizes, h.2.read, h.2.compiled⟩

theorem runnable_withStageId (stageId : UInt32) (n : Network σ) (h : n.Runnable) : { n with stageId }.Runnable :=
  ⟨h.1.withHistory n.settings stageId n.aborted n.service, h.2.sizes, h.2.read, h.2.compiled⟩

/-- Once weights are read, the marks of a graph can be taken away. -/
theorem runnable_withMarks : IgnoresMarks fun n : Network σ => n.Runnable := by
  rintro change hchange n ⟨hn, hcleared⟩
  refine ⟨⟨hn.topology, hn.filled, hn.linked, hn.weighted, ?_⟩, hcleared.sizes, hcleared.read, hcleared.compiled⟩
  intro hended graph hbuilt
  obtain ⟨old, hold, rfl⟩ := Option.map_eq_some_iff.1 hbuilt
  have hfits := hn.fits hended hold
  exact ⟨(hchange old).symm ▸ hfits.compile_eq, hfits.sizes, hfits.weighted, .inl hcleared.read, hfits.compiled⟩

variable [PlacementService σ]

/-- A graph that is built is the one that the topology compiles to. -/
theorem keeps_buildGraph_runnable (stage : StageDescriptor) :
    Step.Keeps (fun n : Network σ => n.Runnable) (buildGraph stage) := by
  intro n hn
  have hkeeps : Step.Keeps (fun m : Network σ => m.Runnable ∧ m.topology = n.topology ∧ m.limits = n.limits)
      (compilePlaceLoad stage) :=
    keeps_compilePlaceLoad
      (IgnoresService.bearsRequests fun service m h => ⟨runnable_withService service m h.1, h.2⟩) stage
  rw [buildGraph_eq]
  cases h : compilePlaceLoad stage n with
  | error e later =>
    rw [Step.after_bind_error _ h]
    exact (hkeeps.error ⟨hn, rfl, rfl⟩ h).1
  | ok found later =>
    obtain ⟨⟨hlater, hcleared⟩, htopology, hlimits⟩ := hkeeps.ok ⟨hn, rfl, rfl⟩ h
    have hcompile : compile later.topology later.limits = .ok found.1 := by
      rw [htopology, hlimits]
      exact compile_of_compilePlaceLoad h
    rw [Step.after_bind_ok _ h]
    refine ⟨⟨hlater.topology, hlater.filled, hlater.linked, hlater.weighted, ?_⟩, hcleared.sizes, hcleared.read,
      hcleared.compiled⟩
    intro _ graph hgraph
    cases hgraph
    exact ⟨hcompile, hcleared.sizes, hlater.weighted hcleared.read, .inl hcleared.read, hcleared.compiled⟩

theorem keeps_runStage (files : FileTree) (request : StageRequest) :
    Step.Keeps (fun n : Network σ => n.Consistent) (runStage files request) := by
  intro n hn
  have hstart := hn.withHistory n.settings n.stageId false n.service
  have haborted {later : Network σ} (h : later.Consistent) : { later with aborted := true }.Consistent :=
    h.withHistory later.settings later.stageId true later.service
  cases hended : n.ended with
  | true =>
    rw [Step.after_ok (runStage_of_ended hended)]
    exact haborted hn
  | false =>
    obtain ⟨later, hpre, hlater⟩ | ⟨reason, later, hpre, hlater⟩ := hstart.preflight_cases files
    · unfold Step.after
      rw [runStage_of_passes hended hpre]
      exact (keeps_runChecked runnable_withService runnable_withMarks keeps_buildGraph_runnable
        runnable_withStageId request later hlater).1
    · rw [Step.after_ok (runStage_of_fails hended hpre)]
      exact haborted hlater

theorem keeps_finish : Step.Keeps (fun n : Network σ => n.Consistent) finish := by
  have hstop : Step.Keeps (fun n : Network σ => n.Consistent) (onService PlacementService.stop) :=
    keeps_onService (fun service n h => h.withHistory n.settings n.stageId n.aborted service) _
  refine Step.keeps_get.bind fun n => Step.keeps_ite (hstop.bind fun _ => ?_) (Step.keeps_pure _)
  refine Step.keeps_modify fun n hn => ⟨hn.topology, hn.filled, hn.linked, hn.weighted, ?_⟩
  intro hrunning
  cases hrunning

omit [PlacementService σ] in
theorem keeps_atOnce {α : Type} {change : Network σ → Result (α × Network σ)}
    (h : ∀ {n : Network σ} {a : α} {later : Network σ}, n.Consistent → change n = .ok (a, later) → later.Consistent) :
    Step.Keeps (fun n : Network σ => n.Consistent) (Step.atOnce change) := by
  intro n hn
  cases hchange : change n with
  | ok found =>
    rw [Step.after_ok (Step.atOnce_ok hchange)]
    exact h hn hchange
  | error e =>
    rw [Step.after_error (Step.atOnce_error hchange)]
    exact hn

/-- Every call keeps the invariant, whether it fails or not. -/
theorem keeps_call (call : PublicCall) : Step.Keeps (fun n : Network σ => n.Consistent) call.onNetwork := by
  cases call with
  | addGroup units roles inputFunctions outputFunctions label =>
    exact (keeps_atOnce fun hn h => hn.addGroup h).bind fun _ => Step.keeps_pure _
  | addLink source destination label =>
    exact (keeps_atOnce fun hn h => hn.addLink h).bind fun _ => Step.keeps_pure _
  | setGroupParams id params =>
    refine keeps_atOnce fun {n _ later} hn h => ?_
    cases hset : n.setGroupParams id params with
    | error e =>
      rw [hset] at h
      cases h
    | ok found =>
      rw [hset] at h
      cases h
      exact hn.setGroupParams hset
  | setParams params => exact Step.keeps_modify fun n hn => hn.setParams params
  | setWeightsFile path => exact Step.keeps_modify fun n hn => hn.setWeightsFile path
  | setExamplesFile files path => exact (keeps_setExamplesFile files path).bind fun _ => Step.keeps_pure _
  | attachExampleSet s => exact Step.keeps_modify fun n hn => hn.dropGraph n.recording (some s)
  | setRecording recording => exact Step.keeps_modify fun n hn => hn.setRecording recording
  | stage call =>
    refine Step.Keeps.bind (fun n hn => ?_) fun _ => Step.keeps_pure _
    unfold Step.after
    rw [call.runOn_eq]
    exact keeps_runStage call.files (call.request n.settings) n hn
  | finish => exact keeps_finish

end Stage

section Uses

variable [PlacementService σ]

theorem Consistent.afterUse (hn : n.Consistent) (used : NetworkUse σ) : (n.afterUse used).Consistent := by
  cases used with
  | call call => exact keeps_call call n hn
  | service change => exact hn.withHistory n.settings n.stageId n.aborted (change n.service)

theorem Consistent.afterUses (hn : n.Consistent) (uses : List (NetworkUse σ)) : (n.afterUses uses).Consistent := by
  induction uses generalizing n with
  | nil => exact hn
  | cons used rest ih => exact ih (hn.afterUse used)

end Uses

end Network

end PerceptronMesh

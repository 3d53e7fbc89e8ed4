import PerceptronMesh.Proofs.Network.View

/-!
Uses of a network over any service: its calls, and in between whatever is done to the service that
it lends. A controller that is used as a network is goes where the network goes.
-/

namespace PerceptronMesh

/-- The calls that change a network. -/
inductive PublicCall where
  | addGroup (units : Nat) (roles : Roles) (inputFunctions : Option (List InputFunction))
      (outputFunctions : Option (List OutputFunction)) (label : Option String)
  | addLink (source destination : GroupId) (label : Option String)
  | setGroupParams (id : GroupId) (params : GroupParams)
  | setParams (params : NetworkParams)
  | setWeightsFile (path : Path)
  | setExamplesFile (files : FileTree) (path : Path)
  | attachExampleSet (s : ExampleSet)
  | setRecording (recording : Recording)
  | stage (call : StageCall)
  | finish

inductive NetworkUse (σ : Type) where
  | call (call : PublicCall)
  | service (change : σ → σ)

section

variable {σ : Type} [PlacementService σ]

def StageCall.onController (call : StageCall) : Step (Controller σ) StageOutcome := do
  let settings := (← get).settings
  Controller.runStage call.files (call.request settings)

namespace PublicCall

def onController : PublicCall → Step (Controller σ) Unit
  | .addGroup units roles inputFunctions outputFunctions label => do
    let _ ← Controller.addGroup units roles inputFunctions outputFunctions label
  | .addLink source destination label => do
    let _ ← Controller.addLink source destination label
  | .setGroupParams id params => Controller.setGroupParams id params
  | .setParams params => modify fun c => c.setParams params
  | .setWeightsFile path => modify fun c => c.setWeightsFile path
  | .setExamplesFile files path => do
    let _ ← Controller.setExamplesFile files path
  | .attachExampleSet s => modify fun c => c.attachExampleSet s
  | .setRecording recording => modify fun c => c.setRecording recording
  | .stage call => do
    let _ ← call.onController
  | .finish => Controller.finish

def onNetwork : PublicCall → Step (Network σ) Unit
  | .addGroup units roles inputFunctions outputFunctions label => do
    let _ ← Step.atOnce fun n => n.addGroup units roles inputFunctions outputFunctions label
  | .addLink source destination label => do
    let _ ← Step.atOnce fun n => n.addLink source destination label
  | .setGroupParams id params => Step.atOnce fun n => (n.setGroupParams id params).map fun later => ((), later)
  | .setParams params => modify fun n => n.setParams params
  | .setWeightsFile path => modify fun n => n.setWeightsFile path
  | .setExamplesFile files path => do
    let _ ← Network.setExamplesFile files path
  | .attachExampleSet s => modify fun n => n.attachExampleSet s
  | .setRecording recording => modify fun n => n.setRecording recording
  | .stage call => do
    let _ ← call.runOn
  | .finish => Network.finish

end PublicCall

/-- The controller after a use, whether a call failed or not. -/
def Controller.afterUse (c : Controller σ) : NetworkUse σ → Controller σ
  | .call call => Step.after call.onController c
  | .service change => { c with service := change c.service }

def Controller.afterUses (c : Controller σ) (uses : List (NetworkUse σ)) : Controller σ :=
  uses.foldl Controller.afterUse c

def Network.afterUse (n : Network σ) : NetworkUse σ → Network σ
  | .call call => Step.after call.onNetwork n
  | .service change => { n with service := change n.service }

def Network.afterUses (n : Network σ) (uses : List (NetworkUse σ)) : Network σ :=
  uses.foldl Network.afterUse n

namespace Network

variable {n : Network σ}

omit [PlacementService σ] in
theorem changeTopologyInPlace_eq {α : Type} (change : Topology → Result (α × Topology)) :
    changeTopologyInPlace (Step.atOnce change) = Step.atOnce fun n : Network σ => n.changeAtOnce change := by
  funext n
  obtain ⟨_, hplace, hcall, _⟩ | ⟨_, _, hplace, hcall⟩ := changeTopologyInPlace_cases change n
  · rw [hplace, Step.atOnce_error hcall]
  · rw [hplace, Step.atOnce_ok hcall]

omit [PlacementService σ] in
theorem mirrors_addGroup (units : Nat) (roles : Roles) (inputFunctions : Option (List InputFunction))
    (outputFunctions : Option (List OutputFunction)) (label : Option String) :
    Step.Mirrors controller (Controller.addGroup units roles inputFunctions outputFunctions label)
      (Step.atOnce fun n => n.addGroup units roles inputFunctions outputFunctions label) n := by
  have h := mirrors_changeTopology (n := n)
    (Topology.addGroupInPlace units roles inputFunctions outputFunctions label)
  rw [Topology.addGroupInPlace_eq, changeTopologyInPlace_eq, ← Topology.addGroupInPlace_eq] at h
  exact h

omit [PlacementService σ] in
theorem mirrors_addLink (source destination : GroupId) (label : Option String) :
    Step.Mirrors controller (Controller.addLink source destination label)
      (Step.atOnce fun n => n.addLink source destination label) n := by
  have h := mirrors_changeTopology (n := n) (Step.atOnce fun t => t.addLink source destination label)
  rw [changeTopologyInPlace_eq] at h
  exact h

theorem mirrors_stage (call : StageCall) : Step.Mirrors controller call.onController call.runOn n := by
  unfold Step.Mirrors
  rw [call.runOn_eq]
  exact mirrors_runStage call.files (call.request n.settings)

/-- A call has the same result for a network and for its controller. -/
theorem mirrors_call (call : PublicCall) : Step.Mirrors controller call.onController call.onNetwork n := by
  cases call with
  | addGroup units roles inputFunctions outputFunctions label =>
    exact (mirrors_addGroup _ _ _ _ _).bind fun _ _ _ => Step.mirrors_pure _
  | addLink source destination label => exact (mirrors_addLink _ _ _).bind fun _ _ _ => Step.mirrors_pure _
  | setGroupParams id params =>
    have h := mirrors_setGroupParams (n := n) id params
    unfold Step.Mirrors at h ⊢
    rw [setGroupParamsInPlace_eq] at h
    show Controller.setGroupParams id params n.controller = _
    rw [h, PublicCall.onNetwork, Step.atOnce]
    cases n.setGroupParams id params <;> rfl
  | setParams params => exact Step.mirrors_modify (n.controller_setParams params)
  | setWeightsFile path => exact Step.mirrors_modify (n.controller_setWeightsFile path)
  | setExamplesFile files path => exact (mirrors_setExamplesFile _ _).bind fun _ _ _ => Step.mirrors_pure _
  | attachExampleSet s => exact Step.mirrors_modify (n.controller_attachExampleSet s)
  | setRecording recording => exact Step.mirrors_modify (n.controller_setRecording recording)
  | stage call => exact (mirrors_stage call).bind fun _ _ _ => Step.mirrors_pure _
  | finish => exact mirrors_finish

theorem controller_afterUse (n : Network σ) (used : NetworkUse σ) :
    n.controller.afterUse used = (n.afterUse used).controller := by
  cases used with
  | call call => exact (mirrors_call call).after_eq
  | service change => rfl

theorem controller_afterUses (n : Network σ) (uses : List (NetworkUse σ)) :
    n.controller.afterUses uses = (n.afterUses uses).controller := by
  induction uses generalizing n with
  | nil => rfl
  | cons used rest ih =>
    show (n.controller.afterUse used).afterUses rest = ((n.afterUse used).afterUses rest).controller
    rw [controller_afterUse, ih]

end Network

end

namespace NetworkCall

/-- Over a loopback test results are queued at the service. -/
def use : NetworkCall → NetworkUse Loopback
  | .addGroup units roles inputFunctions outputFunctions label =>
    .call (.addGroup units roles inputFunctions outputFunctions label)
  | .addLink source destination label => .call (.addLink source destination label)
  | .setGroupParams id params => .call (.setGroupParams id params)
  | .setParams params => .call (.setParams params)
  | .setWeightsFile path => .call (.setWeightsFile path)
  | .setExamplesFile files path => .call (.setExamplesFile files path)
  | .attachExampleSet s => .call (.attachExampleSet s)
  | .setRecording recording => .call (.setRecording recording)
  | .stage call => .call (.stage call)
  | .finish => .call .finish
  | .pushTestResults results => .service fun s => s.pushTestResults results

end NetworkCall

namespace Network

variable {n : Network Loopback}

theorem orKeep_eq_after {α : Type} (change : Network Loopback → Result (α × Network Loopback)) :
    n.orKeep (change n) (·.2) = Step.after (Step.atOnce change) n := by
  cases h : change n with
  | ok found => exact (Step.after_ok (Step.atOnce_ok h)).symm
  | error e => exact (Step.after_error (Step.atOnce_error h)).symm

theorem afterUse_use (n : Network Loopback) (call : NetworkCall) : n.afterUse call.use = n.afterCall call := by
  cases call with
  | addGroup units roles inputFunctions outputFunctions label =>
    exact (Step.after_bind_pure _ _).trans (n.orKeep_eq_after _).symm
  | addLink source destination label => exact (Step.after_bind_pure _ _).trans (n.orKeep_eq_after _).symm
  | setGroupParams id params =>
    have h := n.orKeep_eq_after fun n => (n.setGroupParams id params).map fun later => ((), later)
    refine Eq.trans h.symm ?_
    show _ = n.orKeep (n.setGroupParams id params) fun later => later
    cases n.setGroupParams id params <;> rfl
  | setParams params => rfl
  | setWeightsFile path => rfl
  | setExamplesFile files path => exact Step.after_bind_pure _ _
  | attachExampleSet s => rfl
  | setRecording recording => rfl
  | stage call =>
    refine (Step.after_bind_pure call.runOn ()).trans ?_
    cases call <;> rfl
  | finish => rfl
  | pushTestResults results => rfl

theorem afterUses_use (n : Network Loopback) (calls : List NetworkCall) :
    n.afterUses (calls.map NetworkCall.use) = n.afterCalls calls := by
  induction calls generalizing n with
  | nil => rfl
  | cons call rest ih =>
    show (n.afterUse call.use).afterUses (rest.map NetworkCall.use) = (n.afterCall call).afterCalls rest
    rw [afterUse_use, ih]

end Network

end PerceptronMesh

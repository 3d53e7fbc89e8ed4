import PerceptronMesh.Placement.Service

/-!
A service that fails at chosen calls, to rehearse faults of a placement.
-/

namespace PerceptronMesh

structure Rehearsal (σ : Type) where
  service : σ
  /-- Calls that fail, counted from 1 for each kind of call. -/
  faults : List (ServiceCall × Nat)
  /-- Calls of each kind made so far, in the order of `ServiceCall.all`. -/
  counts : List Nat := ServiceCall.all.map fun _ => 0

namespace Rehearsal

variable {σ α : Type}

/-- Counts a call and passes it on unless it is one that fails. -/
def attempt (call : ServiceCall) (step : Step σ α) : Step (Rehearsal σ) α := do
  modify fun r => { r with counts := r.counts.modify call.rank (· + 1) }
  let r ← get
  let count := r.counts.getD call.rank 0
  if r.faults.contains (call, count) then throw (.placement (.rehearsed call count))
  Step.onPart Rehearsal.service (fun service r => { r with service }) step

instance [PlacementService σ] : PlacementService (Rehearsal σ) where
  place g := attempt .place (PlacementService.place g)
  load payloads := attempt .load (PlacementService.load payloads)
  updateRegion unit region data :=
    attempt .updateRegion (PlacementService.updateRegion unit region data)
  run stage := attempt .run (PlacementService.run stage)
  stop := attempt .stop PlacementService.stop

end Rehearsal

end PerceptronMesh

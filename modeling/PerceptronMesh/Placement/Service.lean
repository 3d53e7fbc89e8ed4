import PerceptronMesh.Payload.UnitPayload
import PerceptronMesh.Placement.RoutingTable
import PerceptronMesh.Stage.Report

/-!
Placement services: what maps a graph onto hardware, loads its units and runs
stages on them.
-/

namespace PerceptronMesh

/-- A step over a state that the step may have changed even if it fails. -/
abbrev Step (σ : Type) := EStateM Error σ

namespace Step

variable {σ τ α : Type}

def ofResult : Result α → Step σ α
  | .ok a => pure a
  | .error e => throw e

/-- A step on a part of the state. -/
def onPart (part : τ → σ) (replace : σ → τ → τ) (step : Step σ α) : Step τ α := fun whole =>
  match step (part whole) with
  | .ok a changed => .ok a (replace changed whole)
  | .error e changed => .error e (replace changed whole)

end Step

/-- A service with its state. A graph is placed and then loaded; after that come
    any number of updates and runs, and the service is stopped last. -/
class PlacementService (σ : Type) where
  /-- Takes a graph and gives a routing key to each of its partitions. -/
  place : Graph → Step σ RoutingTable
  /-- Writes all regions of all units. -/
  load : List UnitPayload → Step σ Unit
  /-- Writes one region of a loaded unit. -/
  updateRegion : UnitId → Region → List UInt8 → Step σ Unit
  /-- Runs a stage until every unit has finished. -/
  run : StageDescriptor → Step σ StageReport
  stop : Step σ Unit

end PerceptronMesh

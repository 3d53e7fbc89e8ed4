import PerceptronMesh.Graph.Category
import PerceptronMesh.Graph.UnitId

/-!
Differences between what a unit waits for and what is wired into it.
-/

namespace PerceptronMesh

/-- A count that does not match: of senders, or of packets when the senders
    agree. -/
structure Mismatch where
  unit : UnitId
  category : Category
  packets : Bool
  expected : Nat
  wired : Nat
deriving DecidableEq, Repr

def Mismatch.message (m : Mismatch) : String :=
  let noun := if m.packets then "packets" else "senders"
  s!"{m.unit.text} expects {m.expected} {m.category.shortName} {noun} but {m.wired} are wired"

end PerceptronMesh

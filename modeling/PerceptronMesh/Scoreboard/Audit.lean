import PerceptronMesh.Graph.Basic
import PerceptronMesh.Scoreboard.Expected

/-!
Comparison of a graph's edges with what its units wait for.
-/

namespace PerceptronMesh

/-- How many different units send along the given edges. -/
def distinctSenders (edges : List Edge) : Nat := (edges.map (·.source)).eraseDups.length

namespace Plan

/-- The mismatch of one unit in one category, given its incoming edges of that
    category. Packets are compared, as words, only where the senders agree. -/
def mismatch? (p : Plan) (u : MeshUnit) (c : Category) (incoming : List Edge) : Option Mismatch :=
  let senders := distinctSenders incoming
  let packets := Numeric.total (incoming.map (·.packets))
  if p.expectedSenders u c ≠ senders then
    some ⟨u.id, c, false, p.expectedSenders u c, senders⟩
  else if p.expectedPackets u c ≠ packets then
    some ⟨u.id, c, true, (p.expectedPackets u c).toNat, packets.toNat⟩
  else none

/-- All mismatches, by unit in order of creation and then by category. -/
def audit (p : Plan) (g : Graph) : List Mismatch :=
  g.units.toList.flatMap fun u =>
    let incoming := g.edges.toList.filter (·.target = u.id)
    Category.all.filterMap fun c => p.mismatch? u c (incoming.filter (·.category = c))

end Plan

end PerceptronMesh

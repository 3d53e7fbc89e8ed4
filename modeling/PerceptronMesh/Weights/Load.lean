import PerceptronMesh.Topology.Basic
import PerceptronMesh.Weights.Text

/-!
Distribution of weights over a topology: by group, then by unit, then by linked
group and its units.
-/

namespace PerceptronMesh

open Numeric

namespace Weights

/-- Groups linked into a group, by increasing identifier. -/
def sources (t : Topology) (g : Group) : List Group := t.groups.filter fun f => g.isLinkedFrom f.id

/-- Weights of one unit of a group. -/
def fanIn (t : Topology) (g : Group) : Nat := Numeric.total ((sources t g).map (·.units))

/-- How many weights some groups take from a text, one for each pair of linked units. Unlike the
    announced count this one is not cut to a word: it is how often the loops over units run. -/
def need (t : Topology) (groups : List Group) : Nat :=
  Numeric.total (groups.map fun g => g.units * fanIn t g)

/-- The weights from one linked group, whose part of every unit's weights starts
    at `offset`. The unit's weights follow each other from `start` on. -/
def block (values : Array Binary64) (start fanIn offset units sourceUnits : Nat) :
    Array Binary64 :=
  Array.ofFn fun i : Fin (units * sourceUnits) =>
    values.getD (start + i.val / sourceUnits * fanIn + offset + i.val % sourceUnits) (.zero false)

/-- Blocks of a group whose weights start at `start`, the sources' parts laid
    out from `offset` on. -/
def blocks (values : Array Binary64) (start fanIn units : Nat) :
    (offset : Nat) → List Group → List (GroupId × Array Binary64)
  | _, [] => []
  | offset, f :: rest =>
    (f.id, block values start fanIn offset units f.units) ::
      blocks values start fanIn units (offset + f.units) rest

/-- Groups with their weights, which start at `start` for the first. -/
def distribute (t : Topology) (values : Array Binary64) : (start : Nat) → List Group → List Group
  | _, [] => []
  | start, g :: rest =>
    let perUnit := fanIn t g
    { g with weights := blocks values start perUnit g.units 0 (sources t g) } ::
      distribute t values (start + g.units * perUnit) rest

end Weights

namespace Topology

/-- The topology with one weight for each link, in the order of a weights text. -/
def withWeights (t : Topology) (values : Array Binary64) : Topology :=
  { t with groups := Weights.distribute t values 0 t.groups }

/-- Takes over the weights of a text that fits the topology. A block grows as its weights are
    read. The room that is set aside for it beforehand, its number of weights in a 32-bit word,
    is no part of the answer: the product wraps, and only where arithmetic is checked for
    overflow does a group of more pairs than fit a word stop the reading. -/
def readWeights (t : Topology) (text : String) : Result (Weights.Info × Topology) := do
  let (info, values) ← Weights.readText t.expectedLinkCount (Weights.need t t.groups) text.toList
  pure (info, t.withWeights values)

def readWeightsFile (t : Topology) (files : FileTree) (path : Path) :
    Result (Weights.Info × Topology) :=
  match files.readText path with
  | .ok text => t.readWeights text
  | .error cause => .error (.weightsFile (.unreadable path cause))

end Topology

end PerceptronMesh

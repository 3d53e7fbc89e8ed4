import PerceptronMesh.Graph.UnitId
import PerceptronMesh.Payload.Region

/-!
The regions of one unit.
-/

namespace PerceptronMesh

/-- Regions with their contents, by increasing code and without repeats. -/
structure UnitPayload where
  unit : UnitId
  role : UnitRole
  regions : List (Region × List UInt8) := []
deriving DecidableEq, Repr

namespace UnitPayload

/-- Puts a region in its place among others, replacing one of the same kind. -/
def insertRegion (region : Region) (data : List UInt8) :
    List (Region × List UInt8) → List (Region × List UInt8)
  | [] => [(region, data)]
  | (other, old) :: rest =>
    if region = other then (region, data) :: rest
    else if region.code < other.code then (region, data) :: (other, old) :: rest
    else (other, old) :: insertRegion region data rest

def setRegion (p : UnitPayload) (region : Region) (data : List UInt8) : UnitPayload :=
  { p with regions := insertRegion region data p.regions }

def region? (p : UnitPayload) (region : Region) : Option (List UInt8) := p.regions.lookup region

def hasRegion (p : UnitPayload) (region : Region) : Bool := (p.region? region).isSome

def regionList (p : UnitPayload) : List Region := p.regions.map (·.1)

/-- Bytes of all regions together. -/
def size (p : UnitPayload) : Nat := Numeric.total (p.regions.map (·.2.length))

/-- A payload with the listed regions. -/
def ofRegions (unit : UnitId) (role : UnitRole) (regions : List (Region × List UInt8)) :
    UnitPayload :=
  regions.foldl (fun p (region, data) => p.setRegion region data) { unit, role }

end UnitPayload

end PerceptronMesh

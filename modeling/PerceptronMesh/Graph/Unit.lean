import PerceptronMesh.Graph.Category
import PerceptronMesh.Graph.UnitId
import PerceptronMesh.Json.Value
import PerceptronMesh.Partition.Plan

/-!
Units of the compiled graph.
-/

namespace PerceptronMesh

/-- One compute role of one subgroup. -/
structure MeshUnit where
  id : UnitId
  role : UnitRole
  group : GroupId
  subgroup : Nat
  /-- Group and subgroup that a Weight unit takes activations from. -/
  source : Option (GroupId × Nat) := none
  /-- Position of a Sum unit in its tree. -/
  treeNode : Option Nat := none
  /-- Units of the subgroup. -/
  units : Nat
deriving DecidableEq, Repr

namespace MeshUnit

def weight (target source : Subgroup) : MeshUnit :=
  { id := .weight target.group target.subgroup source.group source.subgroup
    role := .weight, group := target.group, subgroup := target.subgroup
    source := some (source.group, source.subgroup), units := target.units }

def sum (sg : Subgroup) (node : Nat) : MeshUnit :=
  { id := .sum sg.group sg.subgroup node
    role := .sum, group := sg.group, subgroup := sg.subgroup
    treeNode := some node, units := sg.units }

def input (sg : Subgroup) : MeshUnit :=
  { id := .input sg.group sg.subgroup
    role := .input, group := sg.group, subgroup := sg.subgroup, units := sg.units }

def threshold (sg : Subgroup) : MeshUnit :=
  { id := .threshold sg.group sg.subgroup
    role := .threshold, group := sg.group, subgroup := sg.subgroup, units := sg.units }

/-- The unit with its identifier but without source and tree position. -/
def withoutOrigin (u : MeshUnit) : MeshUnit := { u with source := none, treeNode := none }

/-- Whether a Weight unit links a subgroup to itself. -/
def isSelfPair (u : MeshUnit) : Bool := u.source = some (u.group, u.subgroup)

/-- The name under which the unit's traffic of a category is routed. -/
def partitionName (u : MeshUnit) (c : Category) : String :=
  let base := s!"{c.shortName}_{u.role.tag}{u.group}_{u.subgroup}"
  let sourced := match u.source with
    | some (group, subgroup) => s!"{base}_{group}_{subgroup}"
    | none => base
  match u.treeNode with
  | some node => s!"{sourced}_{node}"
  | none => sourced

def toJson (u : MeshUnit) : Json :=
  let source := match u.source with
    | some (group, subgroup) =>
      [("from_group", Json.nat group), ("from_subgroup", Json.nat subgroup)]
    | none => []
  let node := match u.treeNode with
    | some node => [("tree_node", Json.nat node)]
    | none => []
  .object ([("id", .string u.id.text), ("role", .string u.role.name), ("group", .nat u.group),
    ("subgroup", .nat u.subgroup)] ++ source ++ node ++ [("units", .nat u.units)])

end MeshUnit

end PerceptronMesh

import PerceptronMesh.Error
import PerceptronMesh.Settings.Learning
import PerceptronMesh.Topology.Role

/-!
Groups of units. What follows from a group's roles is settled when the group is
made; its units are split into subgroups then as well.
-/

namespace PerceptronMesh

open Numeric

/-- Longest pipeline of an Input unit and of a Threshold unit. -/
def maxInputFunctions : Nat := 2

def maxOutputFunctions : Nat := 5

/-- A layer of the network. -/
structure Group where
  id : GroupId
  label : String
  units : Nat
  roles : Roles
  inputFunctions : List InputFunction
  outputFunctions : List OutputFunction
  softClamp : Binary64 := .ofRatio false 1 2
  weakClamp : Binary64 := .ofRatio false 1 2
  criterion : StopCriterion
  errorFunction : ErrorFunction
  params : GroupParams := {}
  initNet : Binary64 := .zero false
  initOutput : Binary64
  writeOut : Bool
  writeBlock : Nat
  isFirstOutput : Bool
  /-- Units of each subgroup. -/
  subunits : List Nat
  /-- Groups linked into this one, in the order of the links. -/
  linksFrom : List GroupId := []
  /-- Weights from each linked group by increasing id; the weight from unit `v`
      to unit `u` is at `u * units(from) + v`. -/
  weights : List (GroupId × Array Binary64) := []
  /-- Input and target values, one row of `units` values an event. -/
  inputs : Array (Option Binary64) := #[]
  targets : Array (Option Binary64) := #[]
deriving DecidableEq, Repr

/-- Sizes of subgroups: all of `cap` units but a possibly smaller last one. -/
def splitUnits (units cap : Nat) : List Nat :=
  let count := (units + cap - 1) / cap
  List.replicate (count - 1) cap ++ [units - cap * (count - 1)]

/-- The pipeline of a Threshold unit of a group with the given roles. A bias
    group and a pure input group have a fixed one. -/
def outputPipeline (roles : Roles) (given : Option (List OutputFunction)) (integratesInput : Bool) :
    List OutputFunction :=
  if roles.bias then [.bias]
  else if roles.input && !roles.output then [.hardClamp]
  else match given with
    | some functions => functions
    | none => if roles.output && !integratesInput then [.logistic, .integrator] else [.logistic]

namespace Group

/-- Makes a group without links and values. -/
def make (id : GroupId) (units : Nat) (roles : Roles) (inputFunctions : Option (List InputFunction))
    (outputFunctions : Option (List OutputFunction)) (writeBlock : Nat) (isFirstOutput : Bool)
    (label : String) (maxSubgroupUnits : Nat) : Result Group :=
  let given := inputFunctions.getD []
  let givenOut := outputFunctions.getD []
  if units = 0 then .error (.configuration (.noUnits label))
  else if roles.isEmpty then .error (.configuration (.noRole label))
  else if maxSubgroupUnits = 0 then .error (.configuration .noSubgroupUnits)
  else if maxInputFunctions < given.length then
    .error (.configuration (.tooManyFunctions label given.length .input maxInputFunctions))
  else if maxOutputFunctions < givenOut.length then
    .error (.configuration (.tooManyFunctions label givenOut.length .output maxOutputFunctions))
  else
    let converges := roles.output && !roles.bias
    .ok {
      id, label, units, roles
      inputFunctions := given
      outputFunctions := outputPipeline roles outputFunctions (given.contains .integrator)
      criterion := if converges then .standard else .none
      errorFunction := if converges then .crossEntropy else .none
      initOutput := if roles.bias then .ofNat 1 else .ofRatio false 1 2
      writeOut := roles.output
      writeBlock, isFirstOutput
      subunits := splitUnits units maxSubgroupUnits }

/-- Whether an integrator is part of the input pipeline. -/
def integratesInput (g : Group) : Bool := g.inputFunctions.contains .integrator

def integratesOutput (g : Group) : Bool := g.outputFunctions.contains .integrator

/-- Whether outputs are fixed to the external input. -/
def hardClamps (g : Group) : Bool := g.roles.input && !g.roles.output && !g.roles.bias

/-- The input pipeline filled up to its full length. -/
def inputSlots (g : Group) : List InputFunction :=
  g.inputFunctions ++ List.replicate (maxInputFunctions - g.inputFunctions.length) .none

def outputSlots (g : Group) : List OutputFunction :=
  g.outputFunctions ++ List.replicate (maxOutputFunctions - g.outputFunctions.length) .none

def subgroups (g : Group) : Nat := g.subunits.length

/-- The first unit of a subgroup. -/
def subgroupOffset (g : Group) (subgroup : Nat) : Nat := Numeric.total (g.subunits.take subgroup)

/-- Units of a subgroup, 0 for one that the group does not have. -/
def subgroupUnits (g : Group) (subgroup : Nat) : Nat := g.subunits.getD subgroup 0

def isLinkedFrom (g : Group) (source : GroupId) : Bool := g.linksFrom.contains source

def weightsFrom? (g : Group) (source : GroupId) : Option (Array Binary64) :=
  (g.weights.find? (·.1 == source)).map (·.2)

end Group

end PerceptronMesh

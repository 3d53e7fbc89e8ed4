import PerceptronMesh.Error

/-!
Sizes that bound a compiled graph, and the switches for what a stage records.
-/

namespace PerceptronMesh

structure Limits where
  /-- Units of one subgroup. -/
  maxSubgroupUnits : Nat := 32
  /-- Inputs of one node of a reduction tree. -/
  maxSumLinks : Nat := 16
  /-- Units of the largest group that a stage accepts. -/
  maxGroupUnits : Nat := 128
  /-- Routing keys reserved for each partition. -/
  keySpaceSize : Nat := 65536
deriving DecidableEq, Repr

/-- Refuses sizes that no graph can be built with. -/
def Limits.validate (limits : Limits) : Result Unit :=
  if limits.maxSubgroupUnits = 0 then .error (.configuration .noSubgroupUnits)
  else if limits.maxSumLinks < 2 then
    .error (.configuration (.fewSumLinks limits.maxSumLinks))
  else if limits.maxGroupUnits = 0 then .error (.configuration .noGroupUnits)
  else if limits.keySpaceSize = 0 then .error (.configuration .noKeySpace)
  else .ok ()

/-- What the units record while a stage runs. -/
structure Recording where
  testResults : Bool := true
  outputs : Bool := true
  lastTickOnly : Bool := false
deriving DecidableEq, Repr

/-- Limits and recording as one configuration file holds them. -/
structure Configuration where
  limits : Limits := {}
  recording : Recording := {}
deriving DecidableEq, Repr

theorem Limits.validate_default : ({} : Limits).validate = .ok () := rfl

end PerceptronMesh

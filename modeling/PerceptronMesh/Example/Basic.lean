import PerceptronMesh.Numeric.Binary64

/-!
Examples: sequences of events with the input and target values of groups.
-/

namespace PerceptronMesh

open Numeric

/-- A value of a unit; `none` is an absent one. -/
abbrev UnitValue := Option Binary64

/-- The values of one list of an event. -/
inductive ListValues where
  /-- One value a unit. -/
  | dense (values : List UnitValue)
  /-- The listed units take `value`, all others the default. -/
  | sparse (units : List Nat) (value : Binary64)
deriving DecidableEq, Repr

/-- Values for a group. Without a name they are meant for the only group of
    their side. -/
structure ValueList where
  group : Option String
  values : ListValues
deriving DecidableEq, Repr

/-- Durations in intervals; an absent one is left to whatever is around. -/
structure Times where
  max : Option Binary64 := none
  min : Option Binary64 := none
  grace : Option Binary64 := none
deriving DecidableEq, Repr, Inhabited

/-- A value for inputs and one for targets. -/
structure SideValues where
  input : Option Binary64 := none
  target : Option Binary64 := none
deriving DecidableEq, Repr, Inhabited

/-- The times of `a`, those it lacks taken from `b`. -/
def Times.or (a b : Times) : Times :=
  { max := a.max.or b.max, min := a.min.or b.min, grace := a.grace.or b.grace }

def SideValues.or (a b : SideValues) : SideValues :=
  { input := a.input.or b.input, target := a.target.or b.target }

structure Event where
  times : Times := {}
  defaults : SideValues := {}
  inputs : List ValueList := []
  targets : List ValueList := []
deriving DecidableEq, Repr, Inhabited

structure Example where
  name : Option String := none
  frequency : Option Binary64 := none
  events : List Event := []
deriving DecidableEq, Repr, Inhabited

end PerceptronMesh

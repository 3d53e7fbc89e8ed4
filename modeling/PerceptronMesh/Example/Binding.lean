import PerceptronMesh.Example.Basic
import PerceptronMesh.Topology.Basic

/-!
Binding of events to groups. The input lists of an event go to input groups and
its target lists to output groups; a group that no list names takes the default.
-/

namespace PerceptronMesh

/-- The values of a list for a group with the given default. -/
def ValueList.expand (list : ValueList) (g : Group) (default : UnitValue) :
    Result (List UnitValue) :=
  match list.values with
  | .dense values =>
    if values.length = g.units then .ok values
    else .error (.examples (.wrongLength g.label g.units values.length))
  | .sparse units value =>
    match units.find? fun unit => g.units ≤ unit with
    | some unit => .error (.examples (.unitOutOfRange unit g.label g.units))
    | none =>
      .ok (units.foldl (fun row unit => row.set unit (some value)) (List.replicate g.units default))

namespace Binding

/-- The group that a list is meant for. -/
def target (side : Side) (groups : List Group) (list : ValueList) : Result Group :=
  match list.group with
  | none =>
    match groups with
    | [only] => .ok only
    | _ => .error (.examples (.unnamedList side groups.length))
  | some name =>
    match groups.find? (·.label == name) with
    | some g => .ok g
    | none => .error (.examples (.noGroup side name))

/-- Rows of values by group. -/
abbrev Rows := List (GroupId × List UnitValue)

/-- Binds one list, whose group may have no row yet. -/
def bindList (side : Side) (groups : List Group) (default : UnitValue) (rows : Rows)
    (list : ValueList) : Result Rows := do
  let g ← target side groups list
  if (rows.lookup g.id).isSome then throw (.examples (.listedTwice side g.label))
  let row ← list.expand g default
  pure (rows ++ [(g.id, row)])

/-- One row for each group, in the order of the groups. -/
def bindEvent (side : Side) (groups : List Group) (default : UnitValue)
    (lists : List ValueList) : Result (List (List UnitValue)) := do
  let rows ← lists.foldlM (bindList side groups default) []
  pure (groups.map fun g => (rows.lookup g.id).getD (List.replicate g.units default))

/-- Values of all events so far, one array a group. -/
structure Columns where
  inputs : List (Array UnitValue)
  targets : List (Array UnitValue)

/-- Adds a row below each column. -/
def addRows (columns : List (Array UnitValue)) (rows : List (List UnitValue)) :
    List (Array UnitValue) :=
  List.zipWith (fun column row => column.appendList row) columns rows

/-- Binds one event; its own defaults come before those of the set. -/
def addEvent (t : Topology) (defaults : SideValues) (columns : Columns) (event : Event) :
    Result Columns := do
  let own := event.defaults.or defaults
  let inputs ← bindEvent .input t.inputGroups own.input event.inputs
  let targets ← bindEvent .target t.outputGroups own.target event.targets
  pure ⟨addRows columns.inputs inputs, addRows columns.targets targets⟩

/-- The values of all input and output groups for a list of events. -/
def columns (t : Topology) (defaults : SideValues) (events : List Event) : Result Columns :=
  events.foldlM (addEvent t defaults)
    ⟨t.inputGroups.map fun _ => #[], t.outputGroups.map fun _ => #[]⟩

end Binding

/-- The topology with the values of its input and output groups replaced. -/
def Topology.withValues (t : Topology) (columns : Binding.Columns) : Topology :=
  let inputs := (t.inputGroups.map (·.id)).zip columns.inputs
  let targets := (t.outputGroups.map (·.id)).zip columns.targets
  { t with
    groups := t.groups.map fun g =>
      { g with
        inputs := (inputs.lookup g.id).getD g.inputs
        targets := (targets.lookup g.id).getD g.targets } }

end PerceptronMesh

import PerceptronMesh.Describe.Number
import PerceptronMesh.Example.Set

/-!
JSON descriptions of examples and example sets.
-/

namespace PerceptronMesh

def Times.describe (t : Times) : Json := describeReals? [t.max, t.min, t.grace]

def SideValues.describe (v : SideValues) : Json := describeReals? [v.input, v.target]

def ValueList.describe (list : ValueList) : Json :=
  .object (("group", .option .string list.group) ::
    match list.values with
    | .dense values => [("dense", describeReals? values)]
    | .sparse units value => [("sparse", describeNats units), ("value", value.describe)])

def Event.describe (e : Event) : Json := .object [
  ("times", e.times.describe), ("defs", e.defaults.describe),
  ("inputs", .list ValueList.describe e.inputs), ("targets", .list ValueList.describe e.targets)]

/-- The events that a description shows: all of a few, else the first two and
    the last. -/
def Example.shownEvents (e : Example) : List Event :=
  if 8 < e.events.length then e.events.take 2 ++ e.events.getLast?.toList else e.events

def Example.describe (e : Example) : Json := .object [
  ("name", .option .string e.name), ("freq", describeReal? e.frequency),
  ("num_events", .nat e.events.length), ("events", .list Event.describe e.shownEvents)]

def SetHeader.describe (h : SetHeader) : Json :=
  describeReals? [h.times.max, h.times.min, h.times.grace, h.defaults.input, h.defaults.target,
    h.active.input, h.active.target]

def ExampleSet.describe (s : ExampleSet) : Json := .object [
  ("label", .string s.label), ("times", s.header.times.describe),
  ("defs", s.header.defaults.describe), ("active", s.header.active.describe),
  ("num_examples", .nat s.examples.length), ("loaded", .bool s.loaded),
  ("compiled", .bool s.compiled.isSome)]

/-- The records with their raw fixed-point values. -/
def CompiledExamples.describe (c : CompiledExamples) : Json := .object [
  ("set", .array [.nat c.set.examples.toNat, .int c.set.maxTime.raw, .int c.set.minTime.raw,
    .int c.set.graceTime.raw]),
  ("examples", .list (fun e => .array [.nat e.number.toNat, .nat e.events.toNat,
    .nat e.firstEvent.toNat, .int e.frequency.raw]) c.examples),
  ("events", .list (fun e => .array [.int e.maxTime.raw, .int e.minTime.raw,
    .int e.graceTime.raw, .nat e.row.toNat]) c.events)]

end PerceptronMesh

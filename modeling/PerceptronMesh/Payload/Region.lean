/-!
The memory regions of a unit.
-/

namespace PerceptronMesh

inductive Region where
  | system
  | network
  | core
  | exampleSet
  | examples
  | events
  | inputs
  | targets
  | weights
  | routing
  | stage
  | recInfo
deriving DecidableEq, Repr

namespace Region

/-- All regions by increasing code. -/
def all : List Region :=
  [.system, .network, .core, .exampleSet, .examples, .events, .inputs, .targets, .weights,
    .routing, .stage, .recInfo]

def code : Region → Nat
  | .system => 0
  | .network => 1
  | .core => 2
  | .exampleSet => 3
  | .examples => 4
  | .events => 5
  | .inputs => 6
  | .targets => 7
  | .weights => 8
  | .routing => 9
  | .stage => 10
  | .recInfo => 11

def name : Region → String
  | .system => "system"
  | .network => "network"
  | .core => "core"
  | .exampleSet => "example_set"
  | .examples => "examples"
  | .events => "events"
  | .inputs => "inputs"
  | .targets => "targets"
  | .weights => "weights"
  | .routing => "routing"
  | .stage => "stage"
  | .recInfo => "rec_info"

def title : Region → String
  | .system => "System"
  | .network => "Network"
  | .core => "Core"
  | .exampleSet => "ExampleSet"
  | .examples => "Examples"
  | .events => "Events"
  | .inputs => "Inputs"
  | .targets => "Targets"
  | .weights => "Weights"
  | .routing => "Routing"
  | .stage => "Stage"
  | .recInfo => "RecInfo"

/-- The region as messages show it. -/
def text (r : Region) : String := s!"{r.title}({r.code})"

def ofName? (name : String) : Option Region := all.find? (·.name == name)

theorem all_getElem? (r : Region) : all[r.code]? = some r := by cases r <;> rfl

end Region

end PerceptronMesh

import PerceptronMesh.Graph.UnitId
import PerceptronMesh.Payload.Region

/-!
Faults of placement services, of the records they return, and of payloads that
cannot be built for them.
-/

namespace PerceptronMesh

/-- The calls of a placement service. -/
inductive ServiceCall where
  | place
  | load
  | updateRegion
  | run
  | stop
deriving DecidableEq, Repr

namespace ServiceCall

def all : List ServiceCall := [.place, .load, .updateRegion, .run, .stop]

/-- Position in `all`. -/
def rank : ServiceCall → Nat
  | .place => 0
  | .load => 1
  | .updateRegion => 2
  | .run => 3
  | .stop => 4

def name : ServiceCall → String
  | .place => "place"
  | .load => "load"
  | .updateRegion => "update_region"
  | .run => "run"
  | .stop => "stop"

def ofName? (name : String) : Option ServiceCall := all.find? (·.name == name)

end ServiceCall

inductive PlacementError where
  | stopped (call : ServiceCall)
  | keysExhausted (partition : String)
  | loadBeforePlace
  | runBeforeLoad
  | notLoaded (unit : UnitId)
  | noRegion (unit : UnitId) (region : Region)
  | staleStage (unit : UnitId)
  | noRoutingKey (partition : String)
  | partialTickRecord (bytes : Nat)
  | noTick (group : GroupId) (subgroup ticks tick : Nat)
  | noExample (tick example_ held : Nat)
  | noOutputs (group : String) (subgroup : Nat)
  | fewOutputs (group : String) (recorded units : Nat)
  | rehearsed (call : ServiceCall) (count : Nat)
deriving DecidableEq, Repr

def PlacementError.detail : PlacementError → String
  | .stopped call => s!"{call.name} after stop"
  | .keysExhausted partition => s!"routing key space exhausted at partition {partition}"
  | .loadBeforePlace => "load before place"
  | .runBeforeLoad => "run before load"
  | .notLoaded unit => s!"unit {unit.text} is not loaded"
  | .noRegion unit region => s!"unit {unit.text} has no {region.text} region"
  | .staleStage unit => s!"unit {unit.text} holds a stale stage region"
  | .noRoutingKey partition => s!"no routing key for partition {partition}"
  | .partialTickRecord bytes => s!"tick data of {bytes} bytes is not a whole number of records"
  | .noTick group subgroup ticks tick =>
    s!"group {group} subgroup {subgroup} recorded {ticks} ticks, tick {tick} requested"
  | .noExample tick example_ held =>
    s!"tick {tick} names example {example_}, the set holds {held}"
  | .noOutputs group subgroup => s!"no outputs recorded for group {group} subgroup {subgroup}"
  | .fewOutputs group recorded units =>
    s!"group {group} recorded {recorded} outputs per tick, expected {units}"
  | .rehearsed call count => s!"scripted failure of {call.name} {count}"

inductive PayloadError where
  | fewWeights (destination : String) (held : Nat) (source : String) (needed : Nat)
  | notWeightUnit (unit : UnitId)
  | raggedValues (group : String) (values units : Nat)
deriving DecidableEq, Repr

def PayloadError.detail : PayloadError → String
  | .fewWeights destination held source needed =>
    s!"{destination} holds {held} weights from {source}, expected {needed}"
  | .notWeightUnit unit => s!"{unit.text} is not a Weight unit"
  | .raggedValues group values units =>
    s!"group {group} holds {values} values, not a multiple of {units} units"

end PerceptronMesh

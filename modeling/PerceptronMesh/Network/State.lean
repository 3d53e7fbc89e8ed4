/-!
The states of a network's life.
-/

namespace PerceptronMesh

inductive ControllerState where
  /-- No graph is built; groups and links may be added. -/
  | idle
  /-- A graph is being built and handed to the placement service. -/
  | compiling
  /-- A graph is placed and loaded. -/
  | graphBuilt
  | running (stage : UInt32)
  /-- The placement service is stopped and no stage runs any more. -/
  | ended
deriving DecidableEq, Repr, Inhabited

namespace ControllerState

/-- Whether the next stage finds a placed graph. -/
def hasGraph : ControllerState → Bool
  | .graphBuilt | .running _ => true
  | _ => false

def isEnded : ControllerState → Bool
  | .ended => true
  | _ => false

def name : ControllerState → String
  | .idle => "idle"
  | .compiling => "compiling"
  | .graphBuilt => "graph_built"
  | .running _ => "running"
  | .ended => "ended"

def text : ControllerState → String
  | .idle => "Idle"
  | .compiling => "Compiling"
  | .graphBuilt => "GraphBuilt"
  | .running stage => s!"Running(stage {stage})"
  | .ended => "Ended"

def stage? : ControllerState → Option UInt32
  | .running stage => some stage
  | _ => none

end ControllerState

end PerceptronMesh

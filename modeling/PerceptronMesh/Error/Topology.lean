import PerceptronMesh.Graph.UnitId

/-!
Faults of links between groups, and of look-ups by identifier.
-/

namespace PerceptronMesh

inductive TopologyError where
  | noSource (group : GroupId)
  | noDestination (group : GroupId)
  | linkDeclared (source destination : String)
  | unknownGroup (label : String)
deriving DecidableEq, Repr

def TopologyError.detail : TopologyError → String
  | .noSource group => s!"link source group {group} not found"
  | .noDestination group => s!"link destination group {group} not found"
  | .linkDeclared source destination => s!"link {source}-{destination} already declared"
  | .unknownGroup label => s!"link names unknown group '{label}'"

/-- Something asked for by an identifier that nothing has. -/
inductive MissingError where
  | group (id : GroupId)
  | unit (id : UnitId)
deriving DecidableEq, Repr

def MissingError.detail : MissingError → String
  | .group id => s!"group {id}"
  | .unit id => s!"unit {id.text}"

inductive GraphError where
  | unitExists (id : UnitId)
deriving DecidableEq, Repr

def GraphError.detail : GraphError → String
  | .unitExists id => s!"unit {id.text} already exists"

end PerceptronMesh

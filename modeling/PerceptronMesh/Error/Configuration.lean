import PerceptronMesh.Files.Tree

/-!
Faults of configuration values, of groups as they are declared, and of the files
that hold configuration.
-/

namespace PerceptronMesh

/-- The pipelines whose length is limited. -/
inductive Pipeline where
  | input
  | output
deriving DecidableEq, Repr

def Pipeline.name : Pipeline → String
  | .input => "input"
  | .output => "output"

inductive ConfigurationError where
  | labelInUse (label : String)
  | noUnits (label : String)
  | noRole (label : String)
  | tooManyFunctions (label : String) (count : Nat) (pipeline : Pipeline) (most : Nat)
  | oversizedGroup (label : String) (units most : Nat)
  | noSubgroupUnits
  | fewSumLinks (links : Nat)
  | noGroupUnits
  | noKeySpace
  | noTicks
  | networkEnded
  | unreadableSettings (path : Path) (cause : FileError)
  | malformedSettings (path : Path) (reason : String)
  | unreadableNetwork (path : Path) (cause : FileError)
  | malformedNetwork (reason : String)
  | malformedNetworkFile (path : Path) (reason : String)
deriving DecidableEq, Repr

namespace ConfigurationError

/-- The fault without the name of its area. The area shows twice when a network
    file is malformed. -/
def detail : ConfigurationError → String
  | .labelInUse label => s!"group label '{label}' already in use"
  | .noUnits label => s!"group '{label}' must have at least one unit"
  | .noRole label => s!"group '{label}' has no role"
  | .tooManyFunctions label count pipeline most =>
    s!"group '{label}' lists {count} {pipeline.name} functions, at most {most} allowed"
  | .oversizedGroup label units most =>
    s!"group '{label}' has {units} units, at most {most} allowed"
  | .noSubgroupUnits => "max_subgroup_units must be at least 1"
  | .fewSumLinks links => s!"max_sum_links must be at least 2, got {links}"
  | .noGroupUnits => "max_group_units must be at least 1"
  | .noKeySpace => "key_space_size must be at least 1"
  | .noTicks => "ticks_per_interval must be at least 1"
  | .networkEnded => "network has ended"
  | .unreadableSettings path cause => s!"Failed to read {path.text}: {cause.message}"
  | .malformedSettings path reason => s!"Failed to parse {path.text}: {reason}"
  | .unreadableNetwork path cause =>
    s!"Failed to read network file '{path.text}': {cause.message}"
  | .malformedNetwork reason => s!"Failed to parse network file: {reason}"
  | .malformedNetworkFile path reason =>
    s!"Invalid configuration: Failed to parse network file: {reason} ({path.text})"

end ConfigurationError

end PerceptronMesh

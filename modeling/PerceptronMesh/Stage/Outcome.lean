import PerceptronMesh.Stage.Report

/-!
How a call for a stage ends.
-/

namespace PerceptronMesh

/-- Why a stage was not run. -/
inductive AbortReason where
  | oversizedGroup (group : String) (units most : Nat)
  | noWeightsFile
  | weightsFile (cause : Error)
  | noExampleSet
  | examplesNotLoaded
  | exampleCompile (cause : Error)
  | noExamples
  | ended
deriving DecidableEq, Repr

namespace AbortReason

def text : AbortReason → String
  | .oversizedGroup group units most => s!"group '{group}' has {units} units (max {most})"
  | .noWeightsFile => "weights file not given"
  | .weightsFile cause => s!"error reading weights file: {cause.message}"
  | .noExampleSet => "no example set"
  | .examplesNotLoaded => "examples not loaded"
  | .exampleCompile cause => s!"error compiling example set: {cause.message}"
  | .noExamples => "example set compiled to zero examples"
  | .ended => "network has ended"

def name : AbortReason → String
  | .oversizedGroup _ _ _ => "oversized_group"
  | .noWeightsFile => "no_weights_file"
  | .weightsFile _ => "weights_file"
  | .noExampleSet => "no_example_set"
  | .examplesNotLoaded => "examples_not_loaded"
  | .exampleCompile _ => "example_compile"
  | .noExamples => "no_examples"
  | .ended => "ended"

def detail? : AbortReason → Option Json
  | .oversizedGroup group units most =>
    some (.object [("group", .string group), ("units", .nat units), ("max", .nat most)])
  | .weightsFile cause => some (.string cause.message)
  | .exampleCompile cause => some (.string cause.message)
  | _ => none

def toJson (r : AbortReason) : Json :=
  .object ([("reason", .string r.name)] ++ r.detail?.toList.map fun detail => ("detail", detail))

end AbortReason

inductive StageOutcome where
  | completed (report : StageReport)
  | aborted (reason : AbortReason)
deriving DecidableEq, Repr

namespace StageOutcome

def isCompleted : StageOutcome → Bool
  | .completed _ => true
  | .aborted _ => false

def report? : StageOutcome → Option StageReport
  | .completed report => some report
  | .aborted _ => none

def abortReason? : StageOutcome → Option AbortReason
  | .completed _ => none
  | .aborted reason => some reason

def toJson : StageOutcome → Json
  | .completed report => .object (("outcome", .string "completed") :: report.members)
  | .aborted reason =>
    .object [("outcome", .string "aborted"), ("reason", reason.toJson)]

end StageOutcome

end PerceptronMesh

import PerceptronMesh.Error

/-!
What a failed command prints: what it was doing, and below it the causes.
-/

namespace PerceptronMesh

/-- The messages from a fault down to its first cause. Faults of files and of
    wire data pass on a cause with a message of its own. -/
def Error.causes (e : Error) : List String :=
  match e with
  | .file cause => [e.message, cause.message]
  | .wire cause => [e.message, cause.message]
  | _ => [e.message]

namespace Command

/-- The text with all lines after the first indented. -/
def hanging (margin text : String) : String :=
  String.intercalate ("\n" ++ margin) ((Path.splitAt '\n' text.toList).map String.ofList)

/-- Causes on lines of their own, numbered if there are several. -/
def causeLines (causes : List String) : List String :=
  match causes with
  | [cause] => ["    " ++ hanging "    " cause]
  | _ =>
    (List.range causes.length).zipWith
      (fun i cause => s!"    {i}: " ++ hanging "       " cause) causes

/-- A step of a command that failed. -/
structure Failure where
  context : String
  cause : Error

def Failure.text (f : Failure) : String :=
  String.intercalate "\n" (["Error: " ++ f.context, "", "Caused by:"] ++ causeLines f.cause.causes)

end Command

end PerceptronMesh

import PerceptronMesh.Files.Tree

/-!
Faults of example text, of binding examples to groups, and of example sets that
are missing.
-/

namespace PerceptronMesh

/-- The two sides of an event. -/
inductive Side where
  | input
  | target
deriving DecidableEq, Repr

def Side.name : Side → String
  | .input => "input"
  | .target => "target"

/-- Largest event count or event index of an example, plus one for an index. -/
def maxEvents : Nat := Nat.pow 2 16

inductive ExampleError where
  | unexpectedHeader (token : String)
  | noValue (key : String)
  | badNumber (token : String)
  | badCount (token : String)
  | tooManyEvents (token : String) (count : Nat)
  | unexpectedToken (token : String)
  | starWithoutCount
  | badIndex (token : String)
  | unclosedBlock
  | namelessList
  | unclosedList (label : String)
  | badUnit (token : String)
  | unreadable (path : Path) (cause : FileError)
  | unnamedList (side : Side) (groups : Nat)
  | noGroup (side : Side) (name : String)
  | listedTwice (side : Side) (label : String)
  | wrongLength (label : String) (units values : Nat)
  | unitOutOfRange (unit : Nat) (label : String) (units : Nat)
  | noSet
  | notCompiled
deriving DecidableEq, Repr

def ExampleError.detail : ExampleError → String
  | .unexpectedHeader token => s!"unexpected header token '{token}'"
  | .noValue key => s!"'{key}' needs a value"
  | .badNumber token => s!"bad number '{token}'"
  | .badCount token => s!"expected an event count, found '{token}'"
  | .tooManyEvents token count =>
    s!"'{token}' needs {count} events, at most {maxEvents} allowed per example"
  | .unexpectedToken token => s!"unexpected token '{token}'"
  | .starWithoutCount => "'[*]' needs a declared event count"
  | .badIndex token => s!"bad event index '{token}'"
  | .unclosedBlock => "unterminated '[' event block"
  | .namelessList => "'(' without a group name"
  | .unclosedList label => s!"unterminated value list for group '{label}'"
  | .badUnit token => s!"bad unit index '{token}' in sparse list"
  | .unreadable path cause => s!"cannot open examples file {path.text}: {cause.message}"
  | .unnamedList side groups =>
    s!"unnamed {side.name} list needs exactly one {side.name} group, network has {groups}"
  | .noGroup side name => s!"no {side.name} group named '{name}'"
  | .listedTwice side label => s!"{side.name} group '{label}' listed twice in one event"
  | .wrongLength label units values =>
    s!"group '{label}' has {units} units but the event lists {values} values"
  | .unitOutOfRange unit label units =>
    s!"unit {unit} out of range for group '{label}' ({units} units)"
  | .noSet => "no example set attached"
  | .notCompiled => "example set not compiled"

end PerceptronMesh

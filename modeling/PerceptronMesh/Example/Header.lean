import PerceptronMesh.Error
import PerceptronMesh.Example.Basic
import PerceptronMesh.Example.Token
import PerceptronMesh.Numeric.Decimal

/-!
The header of example text: values that hold for all of its examples.
-/

namespace PerceptronMesh

open Numeric

/-- Values of a whole set; an event's own come first. -/
structure SetHeader where
  times : Times := {}
  defaults : SideValues := {}
  /-- What listed units of sparse lists take. -/
  active : SideValues := {}
deriving DecidableEq, Repr, Inhabited

/-- The values of `a`, those it lacks taken from `b`. -/
def SetHeader.or (a b : SetHeader) : SetHeader :=
  { times := a.times.or b.times, defaults := a.defaults.or b.defaults
    active := a.active.or b.active }

/-- Reads a number; a dash and `nan` in any case stand for an absent one. -/
def Example.readValue (text : String) : Result UnitValue :=
  if text = "-" ∨ String.ofList (text.toList.map lowerAscii) = "nan" then .ok none
  else match readReal text.toList with
    | some x => .ok (some x)
    | none => .error (.examples (.badNumber text))

/-- Enters the value of one key. -/
def SetHeader.assign (header : SetHeader) (key : Example.Token) (value : String) :
    Result SetHeader := do
  match key with
  | .key "proc" => pure header
  | .key "max" => return { header with times.max := ← Example.readValue value }
  | .key "min" => return { header with times.min := ← Example.readValue value }
  | .key "grace" => return { header with times.grace := ← Example.readValue value }
  | .key "defI" => return { header with defaults.input := ← Example.readValue value }
  | .key "actI" => return { header with active.input := ← Example.readValue value }
  | .key "defT" => return { header with defaults.target := ← Example.readValue value }
  | .key "actT" => return { header with active.target := ← Example.readValue value }
  | _ => throw (.examples (.unexpectedHeader key.text))

namespace Example

/-- Keys that may stand in a header. -/
def headerKeys : List String := ["proc", "max", "min", "grace", "defI", "actI", "defT", "actT"]

/-- Whether a segment is a header: it has keys, only such as a header has, and
    no event block. -/
def isHeader (segment : List Token) : Bool :=
  let keys := segment.filterMap Token.keyName?
  !keys.isEmpty && keys.all headerKeys.contains && !segment.contains .blockOpen

/-- The text of a key's value, which may be any token but another key. -/
def valueFor (key value : Token) : Result String :=
  if value.isKey then .error (.examples (.noValue key.text)) else .ok value.text

/-- Enters keys and values in turn. -/
def readHeader (header : SetHeader) : List Token → Result SetHeader
  | [] => .ok header
  | [key] => .error (.examples (.noValue key.text))
  | key :: value :: rest => do
    readHeader (← header.assign key (← valueFor key value)) rest

end Example

end PerceptronMesh

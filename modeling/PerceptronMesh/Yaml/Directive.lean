import PerceptronMesh.Numeric.Natural
import PerceptronMesh.Yaml.Property
import PerceptronMesh.Yaml.Token

/-!
Directives, lines before a document. They give the version of YAML or the start
of tags that a handle abbreviates.
-/

namespace PerceptronMesh.Yaml

open Numeric

/-- Reads a number of at most nine digits. -/
def readVersionNumber (c : Cursor) : Except Fault (Nat × Cursor) :=
  let (digits, next) := c.span isDigit
  if digits.isEmpty || 9 < digits.length then .error .malformedDirective
  else .ok (ofDigits digits, next)

def readVersion (c : Cursor) : Except Fault (Token × Cursor) := do
  let (major, next) ← readVersionNumber (c.span isSpace).2
  if next.rest.head? ≠ some '.' then throw .malformedDirective
  let (minor, next) ← readVersionNumber next.next
  return (.version major minor, next)

def readTagHandle (c : Cursor) : Except Fault (Token × Cursor) := do
  let (_, c) := c.span isSpace
  if c.rest.head? ≠ some '!' then throw .malformedDirective
  let (handle, next) := Handle.read c
  if !(handle.isClosed || handle.name.isEmpty) then throw .malformedDirective
  let (blanks, next) := next.span isSpace
  if blanks.isEmpty then throw .malformedDirective
  let (start, next) ← readTagWord isFullTagCharacter next
  if !atBlank next.rest then throw .malformedDirective
  return (.tagHandle handle.text start, next)

/-- Reads the directive that starts with the percent sign at a place, and the rest
    of its line. -/
def readDirective (c : Cursor) : Except Fault (Token × Cursor) := do
  let (name, next) := c.next.span isNameCharacter
  if name.isEmpty || !atBlank next.rest then throw .malformedDirective
  let (token, next) ← match String.ofList name with
    | "YAML" => readVersion next
    | "TAG" => readTagHandle next
    | name => .error (.unknownDirective name)
  return (token, ← next.endLine)

end PerceptronMesh.Yaml

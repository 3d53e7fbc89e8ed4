import PerceptronMesh.Error
import PerceptronMesh.Numeric.Decimal
import PerceptronMesh.Text.Line

/-!
Weights text: a magic number, the number of links, of values for each link and
of updates, and then the values, one to a line. Blank lines do not count.
-/

namespace PerceptronMesh.Weights

open Numeric

/-- The first line of every weights text. -/
def magicNumber : Nat := 1431655766

/-- What a text says about its weights. -/
structure Info where
  links : Nat
  valuesPerLink : Nat
  updates : UInt32
deriving DecidableEq, Repr

/-- The lines of a text that are not blank, trimmed and numbered from 1. -/
def numberedLines (text : List Char) : List (Nat × String) :=
  ((Text.lines text).map Text.trim).filter (fun line => !line.isEmpty)
    |>.mapIdx fun index line => (index + 1, String.ofList line)

/-- The number in a header line. -/
def headerNumber (header : WeightsHeader) : Option (Nat × String) → Result Nat
  | none => .error (.weightsFile (.noHeader header))
  | some (number, line) =>
    match readNatural maxWord64 line.toList with
    | some n => .ok n
    | none => .error (.weightsFile (.badHeader number header line))

/-- Checks the header for a network with the given number of links. -/
def readHeader (expected : Nat) (lines : List (Nat × String)) : Result Info := do
  let magic ← headerNumber .magicCookie lines[0]?
  if magic ≠ magicNumber then throw (.weightsFile (.wrongMagic magic))
  let links ← headerNumber .linkCount lines[1]?
  if links ≠ expected then throw (.weightsFile (.wrongLinkCount links expected))
  let valuesPerLink ← headerNumber .valueCount lines[2]?
  if valuesPerLink < 1 ∨ 3 < valuesPerLink then
    throw (.weightsFile (.badValueCount valuesPerLink))
  let updates ← headerNumber .updateCount lines[3]?
  pure { links, valuesPerLink, updates := UInt32.ofNat updates }

def readWeight (number : Nat) (line : String) : Result Binary64 :=
  match readReal line.toList with
  | some x => .ok x
  | none => .error (.weightsFile (.badWeight number line))

/-- The first values of `count` links, each followed by `extra` lines that need
    not be numbers. -/
def readValues (extra : Nat) : (count : Nat) → List (Nat × String) → Result (List Binary64)
  | 0, _ => .ok []
  | _ + 1, [] => .error (.weightsFile .endsEarly)
  | count + 1, (number, line) :: rest => do
    let value ← readWeight number line
    if (rest.take extra).length < extra then throw (.weightsFile .endsEarly)
    let values ← readValues extra count (rest.drop extra)
    pure (value :: values)

/-- The header, which has to announce `expected` links, and then `count` weights. -/
def readText (expected count : Nat) (text : List Char) : Result (Info × Array Binary64) := do
  let lines := numberedLines text
  let info ← readHeader expected lines
  let values ← readValues (info.valuesPerLink - 1) count (lines.drop 4)
  pure (info, values.toArray)

end PerceptronMesh.Weights

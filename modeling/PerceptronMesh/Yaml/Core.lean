import PerceptronMesh.Yaml.Typed

/-!
Values whose type follows from their text and tag alone, and typed values made of
them. Integers turn into reals where a real is wanted.
-/

namespace PerceptronMesh.Yaml

open Numeric

inductive Core where
  | null
  | flag (value : Bool)
  | integer (value : Int)
  | real (value : Binary64)
  | text (value : String)
  /-- A sequence or mapping. -/
  | collection

/-- Whether an integer takes at most a number of bits, with or without a sign. -/
def fitsBits (bits : Nat) (value : Int) : Bool :=
  -(Nat.pow 2 (bits - 1) : Int) ≤ value && value < (Nat.pow 2 bits : Int)

/-- The number that plain text writes. Integers that need between 64 and 128 bits
    are refused, and longer ones are read as reals. -/
def readNumber (cs : List Char) : Except Fault (Option Core) :=
  match (readInteger cs).filter (fitsBits 128) with
  | some value =>
    if fitsBits 64 value then .ok (some (.integer value))
    else .error (.wrongKind "an integer of 64 bits")
  | none =>
    if hasLeadingZero (splitSign cs).2 then .ok none
    else .ok ((readFloat cs).map .real)

namespace Scalar

/-- The value of plain text. -/
def coreOfText (text : String) : Except Fault Core := do
  if text.isEmpty || isNullWord text then return .null
  if let some value := flagOf? text then return .flag value
  return (← readNumber text.toList).getD (.text text)

/-- The value of text that has one of the shared tags of scalars. -/
def coreOfTag? (tag : Tag) (text : String) : Option (Option Core) :=
  if tag = .flag then some ((flagOf? text).map .flag)
  else if tag = .integer then some (((readInteger text.toList).filter (fitsBits 64)).map .integer)
  else if tag = .real then some ((readFloat text.toList).map .real)
  else if tag = .null then some (if isNullWord text then some .null else none)
  else none

/-- The value of a scalar. Text that is not plain or has some other tag is just
    text. -/
def core (s : Scalar) : Except Fault Core :=
  match s.tag with
  | none => if s.isPlain then coreOfText s.text else .ok (.text s.text)
  | some tag =>
    match coreOfTag? tag s.text with
    | some (some value) => .ok value
    | some none => .error (.wrongKind "a value of its tag")
    | none => if tag.isLocal && s.isPlain then coreOfText s.text else .ok (.text s.text)

end Scalar

/-- How deep sequences and mappings may be nested in a document, where all of it
    is read. -/
def depthLimit : Nat := 128

namespace Node

/-- Whether a local tag says what a node is. Such a node has no value that does
    not depend on the application. -/
def isLocal : Node → Bool
  | .scalar s => s.localTag?.isSome
  | .sequence tag _ | .mapping tag _ => (tag.bind Tag.localName?).isSome
  | _ => false

/-- The value of a node. Sequences and mappings have to be made of values, and
    may be nested to a depth. -/
def core : Nat → Node → Reading Core
  | depth, node => do
    let node ← node.resolve
    if node.isLocal then throw (.wrongKind "a value without a local tag")
    match depth, node with
    | _, .scalar s => s.core
    | depth + 1, .sequence _ items =>
      for item in items do
        let _ ← core depth item
      return .collection
    | depth + 1, .mapping _ entries =>
      for (key, value) in entries do
        let _ ← core depth key
        let _ ← core depth value
      return .collection
    | _, _ => throw .tooDeep

end Node

namespace Core

/-- A natural number of 32 bits. -/
def toWord32 : Core → Reading (Option UInt32)
  | .null => return none
  | .integer value =>
    if 0 ≤ value ∧ value ≤ maxWord32 then return some (UInt32.ofNat value.toNat)
    else throw (.wrongKind "a natural number of 32 bits")
  | _ => throw (.wrongKind "a natural number of 32 bits")

def toReal : Core → Reading (Option Binary64)
  | .null => return none
  | .integer value => return some (.ofIntRatio value 1)
  | .real value => return some value
  | _ => throw (.wrongKind "a number")

end Core

end PerceptronMesh.Yaml

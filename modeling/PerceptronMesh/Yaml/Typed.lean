import PerceptronMesh.Yaml.Document
import PerceptronMesh.Yaml.NumberText

/-!
Typed values of YAML nodes. Text may be written as any scalar; numbers, flags and
absent values as plain ones, or as literal ones that are tagged. References are
followed where a value is read, so what nothing reads may refer to itself.
-/

namespace PerceptronMesh.Yaml

open Numeric

namespace Scalar

def isNullWord (text : String) : Bool := ["null", "Null", "NULL", "~"].contains text

def flagOf? (text : String) : Option Bool :=
  if ["true", "True", "TRUE"].contains text then some true
  else if ["false", "False", "FALSE"].contains text then some false
  else none

def isPlain (s : Scalar) : Bool := s.style = .plain

/-- Whether nothing is written, but perhaps a tag. -/
def isEmpty (s : Scalar) : Bool := s.isPlain && s.text.isEmpty

/-- Whether a scalar is null by its text. -/
def isNull (s : Scalar) : Bool := s.isPlain && (s.text.isEmpty || isNullWord s.text)

/-- The text of a scalar that may stand for a number or flag. -/
def typedText? (s : Scalar) (tag : Tag) : Option String :=
  if s.isPlain || (s.style = .literal && s.tag = some tag) then some s.text else none

def flag? (s : Scalar) : Option Bool := (s.typedText? .flag).bind flagOf?

/-- A natural number of 32 bits; a minus sign is refused even before a zero. -/
def word32? (s : Scalar) : Option UInt32 := do
  let text ← s.typedText? .integer
  let (sign, magnitude) := splitSign text.toList
  if sign = some '-' then none
  else ((readMagnitude magnitude).filter (· ≤ maxWord32)).map UInt32.ofNat

def real? (s : Scalar) : Option Binary64 := (s.typedText? .real).bind (readFloat ·.toList)

/-- What a local tag says. -/
def localTag? (s : Scalar) : Option String := s.tag.bind Tag.localName?

/-- Whether an optional value is not given. With the tag of null it has to be
    null. -/
def isNone (s : Scalar) : Except Fault Bool :=
  match s.tag with
  | none => .ok s.isNull
  | some tag =>
    if !s.isPlain || tag ≠ .null then .ok false
    else if isNullWord s.text then .ok true
    else .error (.wrongKind "null")

/-- The name that a scalar gives. A local tag is a name if nothing else is
    written. -/
def name? (s : Scalar) : Option String :=
  match s.localTag? with
  | some name => if s.isNull then some name else none
  | none => some s.text

end Scalar

/-- A reading of a document, which counts the references that are followed. -/
abbrev Reading := ReaderT Document (StateT Nat (Except Fault))

namespace Reading

/-- Counts one more reference. There may be a hundred for each unit of size. -/
def countReference : Reading Unit := do
  modify (· + 1)
  if 100 * (← read).size < (← get) then throw .tooManyReferences

/-- A value that a document has to have. -/
def demand {α : Type} (fault : Fault) : Option α → Reading α
  | some a => return a
  | none => throw fault

end Reading

/-- The fields of a mapping, which are read by name. Fields that nothing reads
    are ignored. -/
structure Fields (α : Type) where
  entries : List (String × α)

namespace Node

/-- The node itself, or the one that it refers to. -/
def resolve : Node → Reading Node
  | .anchored _ content => return content
  | .reference number => do
    Reading.countReference
    Reading.demand .unexpectedEnd ((← read).target? number)
  | node => return node

def scalar? : Node → Option Scalar
  | .scalar s => some s
  | _ => none

/-- A value that a scalar gives. -/
def ofScalar {α : Type} (wanted : String) (read : Scalar → Option α) (node : Node) : Reading α := do
  Reading.demand (.wrongKind wanted) ((← node.resolve).scalar?.bind read)

def text : Node → Reading String := ofScalar "text" (some ·.text)

def word32 : Node → Reading UInt32 := ofScalar "a natural number of 32 bits" Scalar.word32?

def real : Node → Reading Binary64 := ofScalar "a number" Scalar.real?

def flag : Node → Reading Bool := ofScalar "true or false" Scalar.flag?

/-- A member of an enumeration by its name. -/
def named {α : Type} (ofName? : String → Option α) (node : Node) : Reading α := do
  let name ← ofScalar "a name" Scalar.name? node
  Reading.demand (.unknownName name) (ofName? name)

def optional {α : Type} (read : Node → Reading α) (node : Node) : Reading (Option α) := do
  let node ← node.resolve
  match node.scalar? with
  | none => some <$> read node
  | some s => if ← s.isNone then return none else some <$> read node

/-- Whether nothing is written where the node stands. -/
def isEmpty (node : Node) : Bool := node.scalar?.any Scalar.isEmpty

/-- The items of a sequence; nothing written is the empty one. -/
def items {α : Type} (read : Node → Reading α) (node : Node) : Reading (List α) := do
  match ← node.resolve with
  | .sequence _ items => items.mapM read
  | node => if node.isEmpty then return [] else throw (.wrongKind "a list")

/-- The entries of a mapping, whose keys have to be text; nothing written is the
    empty one. -/
def fields (node : Node) : Reading (Fields Node) := do
  match ← node.resolve with
  | .mapping _ entries => return ⟨← entries.mapM fun (key, value) => return (← key.text, value)⟩
  | node => if node.isEmpty then return ⟨[]⟩ else throw (.wrongKind "a mapping")

end Node

namespace Fields

variable {α β : Type}

/-- The only value of a field. -/
def find? (fields : Fields α) (name : String) : Except Fault (Option α) :=
  match fields.entries.filter (·.1 == name) with
  | [] => .ok none
  | [(_, value)] => .ok (some value)
  | _ => .error (.repeatedField name)

def required (fields : Fields α) (name : String) (read : α → Reading β) : Reading β := do
  match ← fields.find? name with
  | some value => read value
  | none => throw (.missingField name)

/-- A field with a value for when it is not given. -/
def orDefault (fields : Fields α) (name : String) (default : β) (read : α → Reading β) :
    Reading β := do
  match ← fields.find? name with
  | some value => read value
  | none => return default

/-- A field that may be missing or null. -/
def optional (fields : Fields Node) (name : String) (read : Node → Reading β) :
    Reading (Option β) :=
  fields.orDefault name none (Node.optional read)

end Fields

/-- The value that a reading finds in a text. -/
def readText {α : Type} (reading : Node → Reading α) (text : String) : Except Fault α := do
  let document ← Document.ofText text
  let (value, _) ← ((reading document.root).run document).run 0
  return value

end PerceptronMesh.Yaml

import PerceptronMesh.Yaml.QuotedText
import PerceptronMesh.Yaml.Tag

/-!
Properties of nodes: anchors, which name them, and tags. A tag is written in
full between angle brackets, or with a handle that abbreviates its start. Octets
in it may be escaped by percent signs.
-/

namespace PerceptronMesh.Yaml

/-- Characters of the names of anchors, handles and directives. -/
def isNameCharacter (c : Char) : Bool := c.isAlphanum || c = '_' || c = '-'

/-- Whether an anchor ends before some text. -/
def endsAnchor (cs : List Char) : Bool :=
  atBlank cs || cs.head?.any "?:,]\x7d%@\x60".toList.contains

/-- Reads the name of an anchor, which starts at a place. -/
def readAnchor (c : Cursor) : Except Fault (String × Cursor) :=
  let (name, next) := c.span isNameCharacter
  if name.isEmpty || !endsAnchor next.rest then .error .malformedAnchor
  else .ok (String.ofList name, next)

/-- Characters that stand for themselves in a tag. -/
def isTagCharacter (c : Char) : Bool :=
  isNameCharacter c || ";/?:@&=+$.!~*'()".toList.contains c

/-- Characters that do so between angle brackets and in directives. -/
def isFullTagCharacter (c : Char) : Bool := isTagCharacter c || ",[]".toList.contains c

/-- The octet of an escape in front of some text. -/
def escapedOctet? : List Char → Option Nat
  | '%' :: high :: low :: _ => ofHex? [high, low]
  | _ => none

/-- How many octets write the character that starts with an octet. -/
def octetCount? (first : Nat) : Option Nat :=
  if first < 0x80 then some 1
  else if first < 0xC0 then none
  else if first < 0xE0 then some 2
  else if first < 0xF0 then some 3
  else if first < 0xF8 then some 4
  else none

/-- The octets of an escaped character, each with an escape of its own. -/
def escapedCharacter? (cs : List Char) : Option (List UInt8) := do
  let first ← escapedOctet? cs
  let count ← octetCount? first
  let others ← (List.range (count - 1)).mapM fun place =>
    (escapedOctet? (cs.drop (3 * (place + 1)))).filter fun octet => 0x80 ≤ octet && octet < 0xC0
  return (first :: others).map UInt8.ofNat

/-- Reads on in a tag. The fuel bounds the number of characters. -/
def tagTail (kind : Char → Bool) :
    Nat → Cursor → List UInt8 → Except Fault (List UInt8 × Cursor)
  | 0, _, _ => .error .unexpectedEnd
  | fuel + 1, c, octets =>
    match c.rest with
    | [] => .ok (octets, c)
    | first :: _ =>
      if first = '%' then
        match escapedCharacter? c.rest with
        | some more => tagTail kind fuel (c.advance (3 * more.length)) (octets ++ more)
        | none => .error .malformedTag
      else if kind first then tagTail kind fuel c.next (octets ++ [UInt8.ofNat first.toNat])
      else .ok (octets, c)

/-- Reads a tag, which may be empty. It ends at the first zero octet, though what
    follows that is read. -/
def readTagText (kind : Char → Bool) (c : Cursor) : Except Fault (Tag × Cursor) := do
  let (octets, next) ← tagTail kind (c.rest.length + 1) c []
  return (⟨octets.takeWhile (· ≠ 0)⟩, next)

/-- Reads a tag of at least one character. -/
def readTagWord (kind : Char → Bool) (c : Cursor) : Except Fault (Tag × Cursor) := do
  let (tag, next) ← readTagText kind c
  if next.index = c.index then throw .malformedTag
  return (tag, next)

/-- A handle, which starts with an exclamation mark. -/
structure Handle where
  name : String
  /-- Whether a mark stands after the name as well. -/
  isClosed : Bool

namespace Handle

def text (handle : Handle) : String :=
  "!" ++ handle.name ++ (if handle.isClosed then "!" else "")

/-- Reads the handle that starts with the mark at a place. -/
def read (c : Cursor) : Handle × Cursor :=
  let (name, next) := c.next.span isNameCharacter
  if next.rest.head? = some '!' then (⟨String.ofList name, true⟩, next.next)
  else (⟨String.ofList name, false⟩, next)

end Handle

/-- A tag as it is written. -/
structure WrittenTag where
  handle : String
  rest : Tag

/-- Reads the tag that starts with the exclamation mark at a place. A mark without
    anything after it is a complete tag. -/
def readTagBody (c : Cursor) : Except Fault (WrittenTag × Cursor) := do
  if c.next.rest.head? = some '<' then
    let (tag, next) ← readTagWord isFullTagCharacter (c.advance 2)
    if next.rest.head? ≠ some '>' then throw .malformedTag
    return (⟨"", tag⟩, next.next)
  let (handle, next) := Handle.read c
  if handle.isClosed then
    let (rest, next) ← readTagWord isTagCharacter next
    return (⟨handle.text, rest⟩, next)
  let (more, next) ← readTagText isTagCharacter next
  let rest := (Tag.ofString handle.name).append more
  return (if rest.octets.isEmpty then ⟨"", .ofString "!"⟩ else ⟨"!", rest⟩, next)

/-- Reads a tag. A blank has to follow it, or a comma between brackets. -/
def readTag (inFlow : Bool) (c : Cursor) : Except Fault (WrittenTag × Cursor) := do
  let (tag, next) ← readTagBody c
  if atBlank next.rest || (inFlow && next.rest.head? = some ',') then return (tag, next)
  else throw .malformedTag

end PerceptronMesh.Yaml

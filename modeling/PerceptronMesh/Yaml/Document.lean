import PerceptronMesh.Yaml.Layout
import PerceptronMesh.Yaml.Node

/-!
The document of a text: its directives and the node that its tokens make up.
-/

namespace PerceptronMesh.Yaml

/-- Where a node stands: between brackets, in a block, or as the key or value of
    a block mapping, where entries need no further indentation. -/
inductive Place where
  | flow
  | block
  | value
deriving DecidableEq

/-- The tags that a document can abbreviate without a directive. -/
def commonHandles : List (String × Tag) :=
  [("!", .ofString "!"), ("!!", .ofString Tag.sharedStart)]

/-- What is left of the tokens of a document, and the names that are known. -/
structure Source where
  tokens : List Token
  handles : List (String × Tag) := commonHandles
  /-- The number of the latest anchor of each name. -/
  anchors : List (String × Nat) := []

namespace Source

abbrev Parser := StateT Source (Except Fault)

def peek? : Parser (Option Token) := return (← get).tokens.head?

def skip : Parser Unit := modify fun s => { s with tokens := s.tokens.tail }

/-- Fails at the next token. -/
def refuse {α : Type} : Parser α := do
  throw (if (← get).tokens.isEmpty then .unexpectedEnd else .unexpectedToken)

/-- Takes the next token if it is the given one. -/
def takes (token : Token) : Parser Bool := do
  if (← peek?) = some token then
    skip
    return true
  else return false

def takeComma : Parser Unit := do
  if !(← takes .comma) then refuse

/-- An absent node before one of some tokens, and else what is read. -/
def orAbsentBefore (ends : List Token) (read : Parser Node) : Parser Node := do
  if (← peek?).any ends.contains then return .absent else read

/-- Gives a name to the node that starts. Its number is the count of names so
    far, which a name that is given again does not raise. -/
def declare (name : String) : Parser Nat := do
  let number := (← get).anchors.length
  modify fun s => { s with anchors := (name, number) :: s.anchors.filter (·.1 != name) }
  return number

def numberOf (name : String) : Parser Nat := do
  match (← get).anchors.lookup name with
  | some number => return number
  | none => throw (.unknownAnchor name)

/-- The whole of a tag. -/
def expand (handle : String) (rest : Tag) : Parser Tag := do
  if handle.isEmpty then return rest
  match (← get).handles.lookup handle with
  | some start => return start.append rest
  | none => throw (.unknownHandle handle)

def readAnchor? : Parser (Option Nat) := do
  if let some (.anchor name) ← peek? then
    skip
    some <$> declare name
  else return none

def readTag? : Parser (Option Tag) := do
  if let some (.tag handle rest) ← peek? then
    skip
    some <$> expand handle rest
  else return none

/-- The anchor and the tag of a node, in either order. -/
def readProperties : Parser (Option Nat × Option Tag) := do
  let number ← readAnchor?
  let tag ← readTag?
  let number ← if number.isSome then pure number else readAnchor?
  return (number, tag)

mutual

/-- Reads a node. The fuel bounds the depth of calls, at most four for each
    token. -/
def readNode : Nat → Place → Parser Node
  | 0, _ => refuse
  | fuel + 1, place => do
    if let some (.reference name) ← peek? then
      skip
      return .reference (← numberOf name)
    let (number, tag) ← readProperties
    let node ← readContent fuel place tag (number.isSome || tag.isSome)
    return match number with
      | some number => .anchored number node
      | none => node

/-- Reads a node after its properties, with which it may be absent. -/
def readContent : Nat → Place → Option Tag → Bool → Parser Node
  | 0, _, _, _ => refuse
  | fuel + 1, place, tag, mayBeAbsent => do
    match ← peek?, place with
    | some (.scalar text style), _ => do
      skip
      return .scalar { text, style, tag }
    | some .flowSequence, _ => do
      skip
      return .sequence tag (← readFlowItems fuel true)
    | some .flowMapping, _ => do
      skip
      return .mapping tag (← readFlowEntries fuel true)
    | some .dash, .value => return .sequence tag (← readLooseItems fuel)
    | some .blockSequence, .block | some .blockSequence, .value => do
      skip
      return .sequence tag (← readBlockItems fuel)
    | some .blockMapping, .block | some .blockMapping, .value => do
      skip
      return .mapping tag (← readBlockEntries fuel)
    | _, _ => if mayBeAbsent then return .scalar { text := "", tag } else refuse

def readBlockItems : Nat → Parser (List Node)
  | 0 => refuse
  | fuel + 1 => do
    if ← takes .dash then
      let item ← orAbsentBefore [.dash, .blockEnd] (readNode fuel .block)
      return item :: (← readBlockItems fuel)
    else if ← takes .blockEnd then return []
    else refuse

/-- Entries at the indentation of the key before them. -/
def readLooseItems : Nat → Parser (List Node)
  | 0 => refuse
  | fuel + 1 => do
    if ← takes .dash then
      let item ← orAbsentBefore [.dash, .key, .colon, .blockEnd] (readNode fuel .block)
      return item :: (← readLooseItems fuel)
    else return []

def readBlockEntries : Nat → Parser (List (Node × Node))
  | 0 => refuse
  | fuel + 1 => do
    if ← takes .key then
      let key ← orAbsentBefore [.key, .colon, .blockEnd] (readNode fuel .value)
      let value ← if ← takes .colon then
          orAbsentBefore [.key, .colon, .blockEnd] (readNode fuel .value)
        else pure .absent
      return (key, value) :: (← readBlockEntries fuel)
    else if ← takes .blockEnd then return []
    else refuse

/-- The value between brackets that a colon announces. -/
def readFlowValue : Nat → Token → Parser Node
  | 0, _ => refuse
  | fuel + 1, closing => do
    if ← takes .colon then orAbsentBefore [.comma, closing] (readNode fuel .flow)
    else return .absent

/-- An entry between curly brackets, whose key is already announced. -/
def readFlowEntry : Nat → Parser (Node × Node)
  | 0 => refuse
  | fuel + 1 => do
    let key ← orAbsentBefore [.colon, .comma, .flowMappingEnd] (readNode fuel .flow)
    return (key, ← readFlowValue fuel .flowMappingEnd)

/-- A pair between square brackets, whose key is already announced. The token that
    shows that there is no key is taken, whatever it is. -/
def readFlowPair : Nat → Parser (Node × Node)
  | 0 => refuse
  | fuel + 1 => do
    let isAbsent := (← peek?).any [Token.colon, .comma, .flowSequenceEnd].contains
    let key ← if isAbsent then do
        skip
        pure .absent
      else readNode fuel .flow
    return (key, ← readFlowValue fuel .flowSequenceEnd)

/-- Items between square brackets. A comma may follow the last one, and a pair is
    a mapping of its own. -/
def readFlowItems : Nat → Bool → Parser (List Node)
  | 0, _ => refuse
  | fuel + 1, isFirst => do
    if ← takes .flowSequenceEnd then return []
    if !isFirst then takeComma
    if ← takes .flowSequenceEnd then return []
    let item ← if ← takes .key then
        (fun pair => .mapping none [pair]) <$> readFlowPair fuel
      else readNode fuel .flow
    return item :: (← readFlowItems fuel false)

/-- Entries between curly brackets. A key without a colon has no value. -/
def readFlowEntries : Nat → Bool → Parser (List (Node × Node))
  | 0, _ => refuse
  | fuel + 1, isFirst => do
    if ← takes .flowMappingEnd then return []
    if !isFirst then takeComma
    if ← takes .flowMappingEnd then return []
    let entry ← if ← takes .key then readFlowEntry fuel
      else (·, .absent) <$> readNode fuel .flow
    return entry :: (← readFlowEntries fuel false)

end

/-- What the directives before a document give. -/
structure Preamble where
  hasVersion : Bool := false
  handles : List (String × Tag) := []

/-- Whether there is any directive. -/
def Preamble.isGiven (p : Preamble) : Bool := p.hasVersion || !p.handles.isEmpty

/-- Adds a directive. The version is given at most once, and each handle too. -/
def Preamble.add (p : Preamble) : Token → Except Fault Preamble
  | .version major minor =>
    if p.hasVersion then .error .repeatedDirective
    else if major = 1 && (minor = 1 || minor = 2) then .ok { p with hasVersion := true }
    else .error .unsupportedVersion
  | .tagHandle handle start =>
    if (p.handles.lookup handle).isSome then .error .repeatedDirective
    else .ok { p with handles := (handle, start) :: p.handles }
  | _ => .error .unexpectedToken

def isDirective : Token → Bool
  | .version _ _ | .tagHandle _ _ => true
  | _ => false

/-- Reads the directives. They can give the common handles another meaning. -/
def readPreamble : Parser Preamble := do
  let lines := (← get).tokens.takeWhile isDirective
  let preamble ← (lines.foldlM Preamble.add {} : Except Fault Preamble)
  modify fun s =>
    { s with
      tokens := s.tokens.drop lines.length
      handles := preamble.handles ++ s.handles }
  return preamble

/-- Whether the content of a document that is marked ends at a token. -/
def endsContent (token : Token) : Bool :=
  token = .documentStart || token = .documentEnd || isDirective token

/-- Reads the only document. After directives its start has to be marked. -/
def readDocument (fuel : Nat) : Parser Node := do
  let preamble ← readPreamble
  let isMarked ← takes .documentStart
  if preamble.isGiven && !isMarked then refuse
  let next ← peek?
  let node ←
    if next.isNone || (isMarked && next.any endsContent) then pure .absent
    else readNode fuel .block
  if (← get).tokens.all (· = .documentEnd) then return node else refuse

end Source

structure Document where
  root : Node
  /-- The anchored nodes, the last one first. -/
  targets : List (Nat × Node)
  size : Nat

namespace Document

def ofNode (root : Node) : Document :=
  { root, targets := root.anchors.reverse, size := root.size }

/-- The document that a text holds. -/
def ofText (text : String) : Except Fault Document := do
  let tokens ← tokens text
  let (root, _) ← (Source.readDocument (4 * tokens.length + 4)).run { tokens }
  return ofNode root

/-- The node that references to a number stand for. -/
def target? (document : Document) (number : Nat) : Option Node := document.targets.lookup number

end Document

end PerceptronMesh.Yaml

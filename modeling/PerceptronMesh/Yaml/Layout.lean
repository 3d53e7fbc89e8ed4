import PerceptronMesh.Yaml.BlockText
import PerceptronMesh.Yaml.Directive
import PerceptronMesh.Yaml.PlainText

/-!
Tokens of a text with its indentation. A block opens where an entry or a key is
indented further than the block around it, and closes where a line is indented
less. That a scalar or bracket is a key shows only at the colon after it, so its
place is kept until then.
-/

namespace PerceptronMesh.Yaml

/-- A place where a key may have started. -/
structure KeyStart where
  /-- How many tokens come before it. -/
  position : Nat
  index : Nat
  line : Nat
  column : Nat
  /-- Whether nothing else than a key can stand there. -/
  required : Bool
deriving Repr

/-- The state of reading tokens. Indentations are one more than the column of
    their block, and 0 outside of all blocks. -/
structure Layout where
  cursor : Cursor
  tokens : Array Token := #[]
  indent : Nat := 0
  /-- Indentations of the blocks around the innermost one. -/
  outer : List Nat := []
  /-- The latest start of a key on the block level. -/
  blockKey : Option KeyStart := none
  /-- The same for each pair of brackets that is open, innermost first. -/
  flowKeys : List (Option KeyStart) := []
  /-- Whether a key may start here. -/
  keyAllowed : Bool := true

namespace Layout

def inFlow (l : Layout) : Bool := !l.flowKeys.isEmpty

def emit (l : Layout) (token : Token) : Layout := { l with tokens := l.tokens.push token }

/-- Skips count characters. -/
def skip (l : Layout) (count : Nat) : Layout := { l with cursor := l.cursor.advance count }

def keyStart (l : Layout) : Option KeyStart :=
  match l.flowKeys with
  | [] => l.blockKey
  | key :: _ => key

def setKeyStart (l : Layout) (key : Option KeyStart) : Layout :=
  match l.flowKeys with
  | [] => { l with blockKey := key }
  | _ :: keys => { l with flowKeys := key :: keys }

/-- A key that no colon has followed by now is none. -/
def dropKey (l : Layout) : Except Fault Layout :=
  if l.keyStart.any (·.required) then .error .keyWithoutColon else .ok (l.setKeyStart none)

/-- Whether no colon at a place can belong to a key any more: it has to stand on
    the same line, within 1024 octets. -/
def KeyStart.isStale (key : KeyStart) (c : Cursor) : Bool :=
  key.line < c.line || key.index + 1024 < c.index

/-- Forgets the starts of keys that have become stale. -/
def dropStale (l : Layout) : Except Fault Layout :=
  let stale := fun key : Option KeyStart => key.any (KeyStart.isStale · l.cursor)
  let kept := fun key => if stale key then none else key
  if stale l.blockKey && l.blockKey.any (·.required) then .error .keyWithoutColon
  else .ok { l with blockKey := kept l.blockKey, flowKeys := l.flowKeys.map kept }

/-- Remembers this place, if a key may start here. -/
def markKey (l : Layout) : Except Fault Layout := do
  if !l.keyAllowed then return l
  let l ← l.dropKey
  let c := l.cursor
  return l.setKeyStart (some {
    position := l.tokens.size, index := c.index, line := c.line, column := c.column
    required := !l.inFlow && l.indent = c.column + 1 })

/-- Puts tokens before the token at a position. -/
def insertAt (l : Layout) (position : Nat) (tokens : List Token) : Layout :=
  { l with tokens := l.tokens.extract 0 position ++ tokens.toArray ++ l.tokens.extract position }

/-- Whether a block that starts in a column lies deeper than the innermost one. -/
def opensBlock (l : Layout) (column : Nat) : Bool := !l.inFlow && l.indent < column + 1

def enterBlock (l : Layout) (column : Nat) : Layout :=
  { l with indent := column + 1, outer := l.indent :: l.outer }

/-- Opens a block at a place, if it lies deeper than the innermost one. -/
def openBlock (l : Layout) (token : Token) : Layout :=
  if l.opensBlock l.cursor.column then (l.enterBlock l.cursor.column).emit token else l

/-- Closes the blocks that are indented further than `indent`. Brackets keep the
    blocks around them open. -/
def closeBlocks (l : Layout) (indent : Nat) : Layout :=
  if l.inFlow then l
  else
    let closed := (l.indent :: l.outer).takeWhile (indent < ·)
    let kept := (l.indent :: l.outer).dropWhile (indent < ·)
    { l with
      tokens := l.tokens ++ (closed.map fun _ => Token.blockEnd)
      indent := kept.head?.getD 0
      outer := kept.tail }

/-- Blanks and comments before a token. A line break outside of brackets lets a
    key start; a tab may stand where no key can start, and a byte order mark at
    the start of a line. -/
def skipBlanks : Nat → Layout → Layout
  | 0, l => l
  | fuel + 1, l =>
    match l.cursor.rest with
    | [] => l
    | c :: rest =>
      if c = '#' then
        skipBlanks fuel (l.skip (1 + (rest.takeWhile (!isBreak ·)).length))
      else if isBreak c then
        skipBlanks fuel { l.skip 1 with keyAllowed := l.keyAllowed || !l.inFlow }
      else if c = ' ' || (c = '\t' && (l.inFlow || !l.keyAllowed)) ||
          (c = '\uFEFF' && l.cursor.column = 0) then
        skipBlanks fuel (l.skip 1)
      else l

/-- A line that separates documents. -/
def readMarker (l : Layout) (token : Token) : Except Fault Layout := do
  let l ← (l.closeBlocks 0).dropKey
  return ({ l with keyAllowed := false }.emit token).skip 3

/-- A line that says something about the document after it. -/
def readDirectiveLine (l : Layout) : Except Fault Layout := do
  let l ← (l.closeBlocks 0).dropKey
  let (token, next) ← readDirective l.cursor
  return { l with cursor := next, keyAllowed := false }.emit token

def readOpening (l : Layout) (token : Token) : Except Fault Layout := do
  let l ← l.markKey
  return ({ l with flowKeys := none :: l.flowKeys, keyAllowed := true }.emit token).skip 1

def readClosing (l : Layout) (token : Token) : Except Fault Layout := do
  let l ← l.dropKey
  return ({ l with flowKeys := l.flowKeys.tail, keyAllowed := false }.emit token).skip 1

def readComma (l : Layout) : Except Fault Layout := do
  let l ← l.dropKey
  return ({ l with keyAllowed := true }.emit .comma).skip 1

def readDash (l : Layout) : Except Fault Layout := do
  if !l.inFlow && !l.keyAllowed then throw .misplacedEntry
  let l ← (l.openBlock .blockSequence).dropKey
  return ({ l with keyAllowed := true }.emit .dash).skip 1

/-- A question mark, which announces a key. -/
def readKeyMark (l : Layout) : Except Fault Layout := do
  if !l.inFlow && !l.keyAllowed then throw .misplacedKey
  let l ← (l.openBlock .blockMapping).dropKey
  return ({ l with keyAllowed := !l.inFlow }.emit .key).skip 1

/-- A colon makes a key of what started at the remembered place. -/
def readColon (l : Layout) : Except Fault Layout := do
  match l.keyStart with
  | some key =>
    let l := l.setKeyStart none
    let l := if l.opensBlock key.column then
        (l.enterBlock key.column).insertAt key.position [.blockMapping, .key]
      else l.insertAt key.position [.key]
    return ({ l with keyAllowed := false }.emit .colon).skip 1
  | none =>
    if !l.inFlow && !l.keyAllowed then throw .misplacedColon
    let l := l.openBlock .blockMapping
    return ({ l with keyAllowed := !l.inFlow }.emit .colon).skip 1

/-- An anchor, or a reference to one. -/
def readName (l : Layout) (token : String → Token) : Except Fault Layout := do
  let l ← l.markKey
  let (name, next) ← readAnchor l.cursor.next
  return { l with cursor := next, keyAllowed := false }.emit (token name)

def readNodeTag (l : Layout) : Except Fault Layout := do
  let l ← l.markKey
  let (tag, next) ← readTag l.inFlow l.cursor
  return { l with cursor := next, keyAllowed := false }.emit (.tag tag.handle tag.rest)

/-- Lines that start after a `|` or `>`. They are no key, but one may follow. -/
def readBlockScalar (l : Layout) (style : Style) : Except Fault Layout := do
  let l ← l.dropKey
  let (text, next) ← readBlock (style = .folded) l.indent l.cursor.next
  return { l with cursor := next, keyAllowed := true }.emit (.scalar (String.ofList text) style)

def readQuotedScalar (l : Layout) (quote : Char) : Except Fault Layout := do
  let l ← l.markKey
  let (text, next) ← readQuoted quote l.cursor
  return { l with cursor := next, keyAllowed := false }.emit (.scalar (String.ofList text) .quoted)

def readPlainScalar (l : Layout) : Except Fault Layout := do
  let l ← l.markKey
  let plain ← readPlain l.inFlow l.indent l.cursor
  return { l with cursor := plain.next, keyAllowed := plain.endsLine }.emit
    (.scalar (String.ofList plain.text) .plain)

/-- Characters that no plain scalar starts with. -/
def isIndicator (c : Char) : Bool :=
  "-?:,[]\x7b\x7d#&*!|>'\"%@\x60".toList.contains c

/-- Whether a plain scalar can start with a character. -/
def startsPlain (l : Layout) (c : Char) (rest : List Char) : Bool :=
  !(isBlank c || isIndicator c) || (c = '-' && !rest.head?.any isSpace) ||
    (!l.inFlow && (c = '?' || c = ':') && !atBlank rest)

/-- The token that starts with a character. -/
def readToken (l : Layout) (c : Char) (rest : List Char) : Except Fault Layout :=
  if c = '%' && l.cursor.column = 0 then l.readDirectiveLine
  else if l.cursor.atMarker '-' then l.readMarker .documentStart
  else if l.cursor.atMarker '.' then l.readMarker .documentEnd
  else if c = '[' then l.readOpening .flowSequence
  else if c = '\x7b' then l.readOpening .flowMapping
  else if c = ']' then l.readClosing .flowSequenceEnd
  else if c = '\x7d' then l.readClosing .flowMappingEnd
  else if c = ',' then l.readComma
  else if c = '-' && atBlank rest then l.readDash
  else if c = '?' && (l.inFlow || atBlank rest) then l.readKeyMark
  else if c = ':' && (l.inFlow || atBlank rest) then l.readColon
  else if c = '*' then l.readName .reference
  else if c = '&' then l.readName .anchor
  else if c = '!' then l.readNodeTag
  else if c = '|' && !l.inFlow then l.readBlockScalar .literal
  else if c = '>' && !l.inFlow then l.readBlockScalar .folded
  else if c = '\'' || c = '"' then l.readQuotedScalar c
  else if l.startsPlain c rest then l.readPlainScalar
  else .error (.unexpectedCharacter c)

/-- Reads tokens up to the end, where all blocks are closed. The fuel bounds
    their number. -/
def readAll : Nat → Layout → Except Fault (Array Token)
  | 0, _ => .error .unexpectedEnd
  | fuel + 1, l => do
    let l := skipBlanks (l.cursor.rest.length + 1) l
    let l ← l.dropStale
    match l.cursor.rest with
    | [] => do
      let l ← (l.closeBlocks 0).dropKey
      return l.tokens
    | c :: rest => do
      let l ← (l.closeBlocks (l.cursor.column + 1)).readToken c rest
      readAll fuel l

end Layout

/-- The tokens of a text. Each takes at least one of its characters. -/
def tokens (text : String) : Except Fault (List Token) := do
  let c ← Cursor.ofString text
  let tokens ← Layout.readAll (c.rest.length + 1) { cursor := c }
  return tokens.toList

end PerceptronMesh.Yaml

import PerceptronMesh.Yaml.Fault

/-!
Places in a YAML text, and the characters that separate words in it.
-/

namespace PerceptronMesh.Yaml

def isSpace (c : Char) : Bool := c = ' ' || c = '\t'

/-- Line feeds, and the separators of lines and of paragraphs. Other line ends
    are written as line feeds before a text is read. -/
def isBreak (c : Char) : Bool := c = '\n' || c = '\u2028' || c = '\u2029'

def isBlank (c : Char) : Bool := isSpace c || isBreak c

/-- Whether nothing but a blank or the end follows. -/
def atBlank : List Char → Bool
  | [] => true
  | c :: _ => isBlank c

/-- Carriage returns, alone or before a line feed, and next-line characters
    become line feeds. -/
def normalizeBreaks : List Char → List Char
  | [] => []
  | '\r' :: '\n' :: rest => '\n' :: normalizeBreaks rest
  | c :: rest => (if c = '\r' || c = '\u0085' then '\n' else c) :: normalizeBreaks rest

/-- The characters that a text may hold: tabs, line ends and all that is
    printable. -/
def isAllowed (c : Char) : Bool :=
  let n := c.toNat
  n = 0x09 || n = 0x0A || n = 0x0D || (0x20 ≤ n && n ≤ 0x7E) || n = 0x85 ||
    (0xA0 ≤ n && n ≤ 0xD7FF) || (0xE000 ≤ n && n ≤ 0xFFFD) || 0x10000 ≤ n

/-- What is left of a text, with the position of its first character. -/
structure Cursor where
  rest : List Char
  /-- How many octets of UTF-8 come before it. -/
  index : Nat := 0
  line : Nat := 0
  column : Nat := 0
deriving Repr

namespace Cursor

/-- The start of a text. -/
def ofString (text : String) : Except Fault Cursor :=
  match text.toList.find? (!isAllowed ·) with
  | some c => .error (.forbiddenCharacter c.toNat)
  | none => .ok { rest := normalizeBreaks text.toList }

/-- One character further. -/
def next (c : Cursor) : Cursor :=
  match c.rest with
  | [] => c
  | first :: rest =>
    if isBreak first then ⟨rest, c.index + first.utf8Size, c.line + 1, 0⟩
    else ⟨rest, c.index + first.utf8Size, c.line, c.column + 1⟩

def advance (c : Cursor) : Nat → Cursor
  | 0 => c
  | count + 1 => c.next.advance count

/-- The characters of a kind that stand here, and the place after them. -/
def span (c : Cursor) (kind : Char → Bool) : List Char × Cursor :=
  let word := c.rest.takeWhile kind
  (word, c.advance word.length)

/-- The start of the next line. Only blanks and a comment may be left of this
    one. -/
def endLine (c : Cursor) : Except Fault Cursor :=
  let (_, c) := c.span isSpace
  let c := if c.rest.head? = some '#' then (c.span (!isBreak ·)).2 else c
  match c.rest with
  | [] => .ok c
  | first :: _ => if isBreak first then .ok c.next else .error (.unexpectedCharacter first)

/-- Whether a document marker stands here: a line that starts with three of the
    given character, followed by a blank. -/
def atMarker (c : Cursor) (mark : Char) : Bool :=
  c.column = 0 &&
    match c.rest with
    | x :: y :: z :: rest => x = mark && y = mark && z = mark && atBlank rest
    | _ => false

/-- Whether a document starts or ends here. -/
def atDocumentMarker (c : Cursor) : Bool := c.atMarker '-' || c.atMarker '.'

end Cursor

/-- The blanks between two words of a scalar. -/
structure Gap where
  /-- Blanks before the first line break. -/
  spaces : List Char := []
  breaks : List Char := []
  /-- Whether the line was ended by an escape. -/
  escaped : Bool := false

namespace Gap

def ofBlanks (blanks : List Char) : Gap :=
  { spaces := blanks.takeWhile isSpace, breaks := blanks.filter isBreak }

/-- The blanks after a line end that is no part of the text. -/
def ofEscapedBreak (blanks : List Char) : Gap :=
  { breaks := blanks.filter isBreak, escaped := true }

/-- What stands for a gap in the text: a single line feed becomes a space, the
    first of several is dropped, and an escaped one never counts. -/
def folded (g : Gap) : List Char :=
  if g.escaped then g.breaks
  else match g.breaks with
    | [] => g.spaces
    | first :: more =>
      if first ≠ '\n' then first :: more else if more.isEmpty then [' '] else more

end Gap

end PerceptronMesh.Yaml

import PerceptronMesh.Yaml.Cursor

/-!
Plain scalars: words without quotes. They end at a colon before a blank, at a
comment, at a document marker and, between brackets, at a bracket or a comma. In
a block they go on over lines that are indented further than it.
-/

namespace PerceptronMesh.Yaml

def isBracket (c : Char) : Bool := c = '[' || c = ']' || c = '\x7b' || c = '\x7d'

/-- The characters up to the end of a word. Between brackets a colon has to be
    followed by a blank or by text. -/
def plainWord (inFlow : Bool) : List Char → Except Fault (List Char)
  | [] => .ok []
  | c :: rest =>
    if isBlank c then .ok []
    else if inFlow && (isBracket c || c = ',') then .ok []
    else if c = ':' && atBlank rest then .ok []
    else if inFlow && c = ':' && rest.head?.any (fun d => isBracket d || d = ',' || d = '?') then
      .error .misplacedColon
    else (plainWord inFlow rest).map (c :: ·)

/-- Whether a tab stands before a column on a line after the first. -/
def tabBefore (limit : Nat) : Option Nat → List Char → Bool
  | _, [] => false
  | column, c :: rest =>
    if isBreak c then tabBefore limit (some 0) rest
    else (c = '\t' && column.any (· < limit)) || tabBefore limit (column.map (· + 1)) rest

/-- A scalar that was read, and whether it ended after a line break. -/
structure PlainText where
  text : List Char
  next : Cursor
  endsLine : Bool

/-- Reads on from a word after a gap. The fuel bounds the number of words. -/
def plainTail (inFlow : Bool) (indent : Nat) :
    Nat → Cursor → Gap → List Char → Except Fault PlainText
  | 0, _, _, _ => .error .unexpectedEnd
  | fuel + 1, c, gap, text => do
    let stop : PlainText := { text, next := c, endsLine := !gap.breaks.isEmpty }
    if c.atDocumentMarker || c.rest.head? = some '#' then return stop
    let word ← plainWord inFlow c.rest
    if word.isEmpty then return stop
    let text := text ++ gap.folded ++ word
    let afterWord := c.advance word.length
    let blanks := afterWord.rest.takeWhile isBlank
    if tabBefore indent none blanks then throw .tabInIndentation
    let gap := Gap.ofBlanks blanks
    let afterGap := afterWord.advance blanks.length
    if blanks.isEmpty || (!inFlow && afterGap.column < indent) then
      return { text, next := afterGap, endsLine := !gap.breaks.isEmpty }
    plainTail inFlow indent fuel afterGap gap text

/-- Reads the plain scalar at a place inside blocks of a given indentation. -/
def readPlain (inFlow : Bool) (indent : Nat) (c : Cursor) : Except Fault PlainText :=
  plainTail inFlow indent (c.rest.length + 1) c {} []

end PerceptronMesh.Yaml

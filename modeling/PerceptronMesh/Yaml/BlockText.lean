import PerceptronMesh.Yaml.Cursor

/-!
Block scalars: lines that are indented further than the block around them. A
literal one keeps its line ends; a folded one joins lines, but for those that
start with a blank. A header tells how far the lines are indented, or else the
first of them does, and what becomes of the line ends after the last one.
-/

namespace PerceptronMesh.Yaml

/-- Which line ends are kept after the last line. -/
inductive Chomping where
  | none
  | first
  | all
deriving DecidableEq, Repr

/-- What stands after the `|` or `>`. -/
structure BlockHeader where
  chomping : Option Chomping := none
  /-- How much further than the block around it the text is indented. -/
  increment : Option Nat := none
deriving Repr

namespace BlockHeader

def chomping? : Char → Option Chomping
  | '+' => some .all
  | '-' => some .none
  | _ => none

def increment? (c : Char) : Option Nat :=
  if '1' ≤ c ∧ c ≤ '9' then some (c.toNat - '0'.toNat) else none

/-- The header with one more character, if that says something new. -/
def add? (h : BlockHeader) (c : Char) : Option BlockHeader :=
  match chomping? c, increment? c with
  | some chomping, _ => if h.chomping.isNone then some { h with chomping } else none
  | none, some increment => if h.increment.isNone then some { h with increment } else none
  | none, none => none

/-- Reads as much of a header as stands at a place. -/
def read (c : Cursor) : BlockHeader × Cursor :=
  match c.rest.head?.bind ({} : BlockHeader).add? with
  | none => ({}, c)
  | some header =>
    match c.next.rest.head?.bind header.add? with
    | none => (header, c.next)
    | some full => (full, c.next.next)

end BlockHeader

/-- Lines without text that were passed. -/
structure BlankLines where
  breaks : List Char := []
  /-- The furthest column that was reached. -/
  widest : Nat := 0
  next : Cursor

/-- Passes blank lines, and the indentation of the line after them up to a limit.
    The fuel bounds the number of lines. -/
def blankTail (limit : Option Nat) : Nat → BlankLines → Except Fault BlankLines
  | 0, _ => .error .unexpectedEnd
  | fuel + 1, lines =>
    let spaces := (lines.next.rest.takeWhile (· = ' ')).length
    let c := lines.next.advance ((limit.map (· - lines.next.column)).elim spaces (min spaces))
    let lines := { lines with next := c, widest := max lines.widest c.column }
    match c.rest with
    | [] => .ok lines
    | first :: _ =>
      if first = '\t' && limit.all (c.column < ·) then .error .tabInIndentation
      else if isBreak first then
        blankTail limit fuel { lines with next := c.next, breaks := lines.breaks ++ [first] }
      else .ok lines

def readBlankLines (limit : Option Nat) (c : Cursor) : Except Fault BlankLines :=
  blankTail limit (c.rest.length + 1) { next := c }

/-- The lines of a block scalar up to a place. -/
structure BlockLines where
  text : List Char := []
  /-- The end of the latest line. -/
  lineEnd : List Char := []
  /-- The ends of the blank lines after it. -/
  blank : List Char
  /-- Whether the latest line starts with a blank. -/
  isSpaced : Bool := false
  next : Cursor

namespace BlockLines

/-- What separates the latest line from the next one. A line feed between two
    lines that do not start with a blank is folded: it becomes a space, or
    vanishes where blank lines follow. -/
def separator (lines : BlockLines) (folds isSpaced : Bool) : List Char :=
  if folds && lines.lineEnd = ['\n'] && !lines.isSpaced && !isSpaced then
    if lines.blank.isEmpty then [' '] else lines.blank
  else lines.lineEnd ++ lines.blank

/-- Reads on while lines are indented as far as the first one. The fuel bounds
    their number. -/
def readAll (folds : Bool) (indent : Nat) : Nat → BlockLines → Except Fault BlockLines
  | 0, _ => .error .unexpectedEnd
  | fuel + 1, lines => do
    let isSpaced := lines.next.rest.head?.any isSpace
    if lines.next.rest.isEmpty || lines.next.column ≠ indent then return lines
    let (line, c) := lines.next.span (!isBreak ·)
    let after ← readBlankLines (some indent) c.next
    readAll folds indent fuel {
      text := lines.text ++ lines.separator folds isSpaced ++ line
      lineEnd := c.rest.take 1, blank := after.breaks, isSpaced, next := after.next }

/-- The text with the line ends that are kept after it. -/
def chomped (lines : BlockLines) : Chomping → List Char
  | .none => lines.text
  | .first => lines.text ++ lines.lineEnd
  | .all => lines.text ++ lines.lineEnd ++ lines.blank

end BlockLines

/-- Reads the block scalar whose header stands at a place, inside blocks of a
    given indentation. -/
def readBlock (folds : Bool) (outer : Nat) (c : Cursor) : Except Fault (List Char × Cursor) := do
  let (header, c) := BlockHeader.read c
  let given := header.increment.map (outer - 1 + ·)
  let leading ← readBlankLines given (← c.endLine)
  let indent := given.getD (max leading.widest (max outer 1))
  let lines ← BlockLines.readAll folds indent (leading.next.rest.length + 1)
    { blank := leading.breaks, next := leading.next }
  return (lines.chomped (header.chomping.getD .first), lines.next)

end PerceptronMesh.Yaml

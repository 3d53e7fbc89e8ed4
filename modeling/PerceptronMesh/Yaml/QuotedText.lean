import PerceptronMesh.Yaml.Cursor

/-!
Quoted scalars. Between single quotes a quote is written twice; between double
quotes there are escapes. Line breaks are folded in both.
-/

namespace PerceptronMesh.Yaml

/-- The character of a one-letter escape. -/
def escaped? : Char → Option Char
  | '0' => some '\x00'
  | 'a' => some '\x07'
  | 'b' => some '\x08'
  | 't' => some '\t'
  | '\t' => some '\t'
  | 'n' => some '\n'
  | 'v' => some '\x0b'
  | 'f' => some '\x0c'
  | 'r' => some '\r'
  | 'e' => some '\x1b'
  | ' ' => some ' '
  | '"' => some '"'
  | '/' => some '/'
  | '\\' => some '\\'
  | 'N' => some '\u0085'
  | '_' => some '\u00a0'
  | 'L' => some '\u2028'
  | 'P' => some '\u2029'
  | _ => none

/-- How many digits follow the letter of a numeric escape. -/
def escapeDigits? : Char → Option Nat
  | 'x' => some 2
  | 'u' => some 4
  | 'U' => some 8
  | _ => none

def hexValue? (c : Char) : Option Nat :=
  if '0' ≤ c ∧ c ≤ '9' then some (c.toNat - '0'.toNat)
  else if 'a' ≤ c ∧ c ≤ 'f' then some (c.toNat - 'a'.toNat + 10)
  else if 'A' ≤ c ∧ c ≤ 'F' then some (c.toNat - 'A'.toNat + 10)
  else none

/-- The number that hexadecimal digits write. -/
def ofHex? (digits : List Char) : Option Nat :=
  digits.foldlM (fun value c => (hexValue? c).map (16 * value + ·)) 0

/-- The character with a code point. -/
def charOf? (code : Nat) : Option Char :=
  if code.isValidChar then some (Char.ofNat code) else none

/-- The character of an escape and how many characters write it, without the
    backslash. -/
def readEscape : List Char → Except Fault (Char × Nat)
  | [] => .error .unclosedQuote
  | c :: rest =>
    match escaped? c, escapeDigits? c with
    | some char, _ => .ok (char, 1)
    | none, none => .error .unknownEscape
    | none, some count =>
      let digits := rest.take count
      match (if digits.length = count then (ofHex? digits).bind charOf? else none) with
      | some char => .ok (char, count + 1)
      | none => .error .unknownEscape

/-- Reads up to the closing quote. The fuel bounds the number of steps. -/
def quotedTail (quote : Char) :
    Nat → Cursor → List Char → Except Fault (List Char × Cursor)
  | 0, _, _ => .error .unclosedQuote
  | fuel + 1, c, text =>
    if c.atDocumentMarker then .error .unclosedQuote
    else match c.rest with
      | [] => .error .unclosedQuote
      | first :: rest =>
        if isBlank first then
          let blanks := c.rest.takeWhile isBlank
          quotedTail quote fuel (c.advance blanks.length) (text ++ (Gap.ofBlanks blanks).folded)
        else if first = quote then
          if quote = '\'' && rest.head? = some quote then
            quotedTail quote fuel (c.advance 2) (text ++ [quote])
          else .ok (text, c.next)
        else if first = '\\' && quote = '"' then
          if rest.head?.any isBreak then
            let blanks := (rest.drop 1).takeWhile isBlank
            quotedTail quote fuel (c.advance (blanks.length + 2))
              (text ++ (Gap.ofEscapedBreak blanks).folded)
          else
            match readEscape rest with
            | .error fault => .error fault
            | .ok (char, count) => quotedTail quote fuel (c.advance (count + 1)) (text ++ [char])
        else quotedTail quote fuel c.next (text ++ [first])

/-- Reads the scalar that starts with the quote at a place. -/
def readQuoted (quote : Char) (c : Cursor) : Except Fault (List Char × Cursor) :=
  quotedTail quote (c.rest.length + 1) c.next []

end PerceptronMesh.Yaml

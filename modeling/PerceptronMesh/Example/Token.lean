import PerceptronMesh.Text.Line

/-!
Tokens of example text. A semicolon, parenthesis or square bracket is a token of
its own, a colon ends a key, and white space ends a word. A comment runs from a
number sign to the end of its line.
-/

namespace PerceptronMesh.Example

inductive Token where
  | semicolon
  | groupOpen
  | groupClose
  | blockOpen
  | blockClose
  /-- A key, without its colon. -/
  | key (name : String)
  | word (text : String)
deriving DecidableEq, Repr

namespace Token

def text : Token → String
  | .semicolon => ";"
  | .groupOpen => "("
  | .groupClose => ")"
  | .blockOpen => "["
  | .blockClose => "]"
  | .key name => name ++ ":"
  | .word text => text

def isKey : Token → Bool
  | .key _ => true
  | _ => false

def keyName? : Token → Option String
  | .key name => some name
  | _ => none

/-- The token of a single character. -/
def mark? (c : Char) : Option Token :=
  if c = ';' then some .semicolon
  else if c = '(' then some .groupOpen
  else if c = ')' then some .groupClose
  else if c = '[' then some .blockOpen
  else if c = ']' then some .blockClose
  else none

/-- The word of the reversed characters, unless there are none. -/
def wordOf (reversed : List Char) : List Token :=
  if reversed.isEmpty then [] else [.word (String.ofList reversed.reverse)]

/-- Tokens of a text inside a comment or after the reversed start of a word. -/
def scan (inComment : Bool) (word : List Char) : List Char → List Token
  | [] => wordOf word
  | c :: rest =>
    if inComment then scan (c != '\n') word rest
    else if c = '#' then wordOf word ++ scan true [] rest
    else if c = ':' then .key (String.ofList word.reverse) :: scan false [] rest
    else match mark? c with
      | some mark => wordOf word ++ mark :: scan false [] rest
      | none =>
        if Text.isBlank c then wordOf word ++ scan false [] rest
        else scan false (c :: word) rest

def tokens (text : List Char) : List Token := scan false [] text

end Token

/-- Runs of tokens between semicolons, with the empty ones. -/
def pieces : List Token → List (List Token)
  | [] => [[]]
  | .semicolon :: rest => [] :: pieces rest
  | token :: rest =>
    match pieces rest with
    | piece :: more => (token :: piece) :: more
    | [] => [[token]]

/-- Runs of tokens between semicolons, without the empty ones. -/
def segments (tokens : List Token) : List (List Token) :=
  (pieces tokens).filter fun piece => !piece.isEmpty

end PerceptronMesh.Example

import PerceptronMesh.Example.Block

/-!
Example text: an optional header and examples, each ended by a semicolon.
-/

namespace PerceptronMesh.Example

open Numeric

/-- What stands in front of an example's lists and blocks. -/
structure Prelude where
  name : Option String := none
  frequency : Option Binary64 := none
  declared : Option Nat := none
deriving DecidableEq, Repr

namespace Prelude

def keys : List String := ["name", "proc", "freq"]

def assign (prelude : Prelude) (key : String) (value : String) : Result Prelude := do
  match key with
  | "name" => pure { prelude with name := some value }
  | "freq" => return { prelude with frequency := ← readValue value }
  | _ => pure prelude

/-- Enters a declared count of events. -/
def declare (prelude : Prelude) (token : String) : Result Prelude :=
  match readWord64 token.toList with
  | some count => (checkCount token count).map fun _ => { prelude with declared := some count }
  | none => .error (.examples (.badCount token))

/-- Reads up to the first block or key of another kind. -/
def read (prelude : Prelude) : List Token → Result (Prelude × List Token)
  | [] => .ok (prelude, [])
  | .blockOpen :: rest => .ok (prelude, .blockOpen :: rest)
  | .key name :: rest =>
    if !keys.contains name then .ok (prelude, .key name :: rest)
    else match rest with
      | [] => .error (.examples (.noValue (Token.key name).text))
      | value :: rest => do
        read (← prelude.assign name (← valueFor (.key name) value)) rest
  | token :: rest => do read (← prelude.declare token.text) rest

end Prelude

/-- Nothing may be left of an example. -/
def refuseRest : List Token → Result Unit
  | [] => .ok ()
  | token :: _ => .error (.examples (.unexpectedToken token.text))

/-- The events of an example. Lists without a block belong to every event. -/
def readEvents (active : Active) (declared : Option Nat) (tokens : List Token) :
    Result (List Event) := do
  if tokens.head? = some .blockOpen then
    let (blocks, rest) ← readBlocks active declared tokens
    refuseRest rest
    pure (mergeBlocks declared blocks)
  else
    let (lists, rest) ← readLists active tokens
    refuseRest rest
    pure (List.replicate (declared.getD 1) { inputs := lists.inputs, targets := lists.targets })

def readExample (active : Active) (segment : List Token) : Result Example := do
  let (prelude, rest) ← Prelude.read {} segment
  let events ← readEvents active prelude.declared rest
  pure { name := prelude.name, frequency := prelude.frequency, events }

/-- What example text holds. -/
structure TextContents where
  header : SetHeader := {}
  examples : List Example := []
deriving DecidableEq, Repr

/-- The value of listed units where no header gives one. -/
def Active.ofHeader (header : SetHeader) : Active :=
  { input := header.active.input.getD (.ofNat 1), target := header.active.target.getD (.ofNat 1) }

/-- Reads example text. Its first segment may be a header, and the active values
    of that header alone go into sparse lists. -/
def readText (text : List Char) : Result TextContents := do
  let all := segments (Token.tokens text)
  let headed := all.head?.any isHeader
  let header ← if headed then readHeader {} (all.headD []) else pure {}
  let examples ← (if headed then all.drop 1 else all).mapM (readExample (.ofHeader header))
  pure { header, examples }

end PerceptronMesh.Example

import PerceptronMesh.Example.Lists

/-!
Event blocks of example text: the events that a block addresses, and the values
that it gives them.
-/

namespace PerceptronMesh.Example

open Numeric

/-- Refuses a count of events that an example may not have. -/
def checkCount (token : String) (count : Nat) : Result Nat :=
  if maxEvents < count then .error (.examples (.tooManyEvents token count)) else .ok count

/-- Reads a count or an index. -/
def readWord64 (cs : List Char) : Option Nat := readNatural maxWord64 cs

/-- Reads an index `n` or a range `n-m` of events. -/
def readIndices (token : String) : Result (List Nat) :=
  let bad : Result (List Nat) := .error (.examples (.badIndex token))
  let range := fun first last =>
    if last < first then bad
    else (checkCount token (min (last + 1) maxWord64)).map fun _ =>
      (List.range (last + 1 - first)).map (first + ·)
  let cs := token.toList
  match cs.dropWhile (· ≠ '-') with
  | [] =>
    match readWord64 cs with
    | some index => range index index
    | none => bad
  | _ :: after =>
    match readWord64 (cs.takeWhile (· ≠ '-')), readWord64 after with
    | some first, some last => range first last
    | _, _ => bad

/-- What stands between a block's brackets. -/
structure BlockHeader where
  indices : List Nat := []
  times : Times := {}
  defaults : SideValues := {}
deriving DecidableEq, Repr

namespace BlockHeader

/-- Keys that may stand between the brackets. -/
def keys : List String := ["max", "min", "grace", "defI", "defT", "proc"]

def assign (header : BlockHeader) (key : String) (value : String) : Result BlockHeader := do
  match key with
  | "max" => return { header with times.max := ← readValue value }
  | "min" => return { header with times.min := ← readValue value }
  | "grace" => return { header with times.grace := ← readValue value }
  | "defI" => return { header with defaults.input := ← readValue value }
  | "defT" => return { header with defaults.target := ← readValue value }
  | _ => pure header

/-- A block that addresses no event addresses the first. -/
def closed (header : BlockHeader) : BlockHeader :=
  if header.indices.isEmpty then { header with indices := [0] } else header

/-- Indices of one word: all declared events for a star, else an index or range. -/
def indicesOf (declared : Option Nat) (token : Token) : Result (List Nat) :=
  if token = .word "*" then
    match declared with
    | some count => .ok (List.range count)
    | none => .error (.examples .starWithoutCount)
  else readIndices token.text

/-- Reads up to the closing bracket. -/
def read (declared : Option Nat) (header : BlockHeader) :
    List Token → Result (BlockHeader × List Token)
  | [] => .error (.examples .unclosedBlock)
  | .blockClose :: rest => .ok (header.closed, rest)
  | token :: rest =>
    if (token.keyName?.any keys.contains) = true then
      match rest with
      | [] => .error (.examples (.noValue token.text))
      | value :: rest => do
        let header ← header.assign (token.keyName?.getD "") (← valueFor token value)
        read declared header rest
    else do
      let indices ← indicesOf declared token
      read declared { header with indices := header.indices ++ indices } rest

theorem length_of_read {declared : Option Nat} {header closed : BlockHeader}
    {tokens rest : List Token} (h : read declared header tokens = .ok (closed, rest)) :
    rest.length < tokens.length := by
  fun_induction read declared header tokens with
  | case1 => cases h
  | case2 => cases h; exact Nat.lt_succ_self _
  | case3 => cases h
  | case4 header token _ value tokens _ ih =>
    obtain ⟨text, _, h⟩ := bind_eq_ok_iff.1 h
    obtain ⟨header, _, h⟩ := bind_eq_ok_iff.1 h
    have := ih header h
    simp only [List.length_cons]
    omega
  | case5 header token tokens _ _ ih =>
    obtain ⟨indices, _, h⟩ := bind_eq_ok_iff.1 h
    have := ih indices h
    simp only [List.length_cons]
    omega

end BlockHeader

/-- A block with the lists that follow it. -/
structure Block where
  header : BlockHeader
  lists : EventLists
deriving DecidableEq, Repr

namespace Block

/-- An event with the block's own times and defaults and with its lists added. -/
def applyTo (block : Block) (event : Event) : Event :=
  { times := block.header.times.or event.times
    defaults := block.header.defaults.or event.defaults
    inputs := event.inputs ++ block.lists.inputs
    targets := event.targets ++ block.lists.targets }

end Block

/-- Blocks up to the first token that opens none. -/
def readBlocks (active : Active) (declared : Option Nat) (tokens : List Token) :
    Result (List Block × List Token) :=
  match tokens with
  | .blockOpen :: rest =>
    match _hheader : BlockHeader.read declared {} rest with
    | .error e => .error e
    | .ok (header, after) =>
      match _hlists : readLists active after with
      | .error e => .error e
      | .ok (lists, remaining) => do
        let (blocks, final) ← readBlocks active declared remaining
        pure (⟨header, lists⟩ :: blocks, final)
  | _ => .ok ([], tokens)
termination_by tokens.length
decreasing_by
  have := BlockHeader.length_of_read _hheader
  have := length_of_readLists _hlists
  simp only [List.length_cons]
  omega

/-- One more than the highest index that a block addresses. -/
def addressed (blocks : List Block) : Nat :=
  (blocks.flatMap (·.header.indices)).foldl (fun most index => max most (index + 1)) 0

/-- The events of an example, every block applied in turn to those it addresses. -/
def mergeBlocks (declared : Option Nat) (blocks : List Block) : List Event :=
  let highest := addressed blocks
  let empty : Array Event := Array.replicate (max (declared.getD highest) highest) {}
  (blocks.foldl (fun events block =>
    block.header.indices.foldl (fun events index => events.modify index block.applyTo) events)
    empty).toList

end PerceptronMesh.Example

import PerceptronMesh.Numeric.Natural

/-!
Identifiers of units. An identifier is made from a unit's role and position;
its text orders units and names them outside the library.
-/

namespace PerceptronMesh

/-- What a unit computes. -/
inductive UnitRole where
  | weight
  | sum
  | input
  | threshold
deriving DecidableEq, Repr

namespace UnitRole

def all : List UnitRole := [.weight, .sum, .input, .threshold]

def rank : UnitRole → Nat
  | .weight => 0
  | .sum => 1
  | .input => 2
  | .threshold => 3

def name : UnitRole → String
  | .weight => "weight"
  | .sum => "sum"
  | .input => "input"
  | .threshold => "threshold"

/-- The letter that opens identifiers and partition names. -/
def tag : UnitRole → Char
  | .weight => 'w'
  | .sum => 's'
  | .input => 'i'
  | .threshold => 't'

def ofName? (name : String) : Option UnitRole := all.find? (·.name == name)

end UnitRole

/-- Position of a group in its network. -/
abbrev GroupId := Nat

/-- A unit's identifier. `foreign` holds a text that is no identifier of a unit
    made from a position. -/
inductive UnitId where
  | weight (group subgroup fromGroup fromSubgroup : Nat)
  | sum (group subgroup node : Nat)
  | input (group subgroup : Nat)
  | threshold (group subgroup : Nat)
  | foreign (text : String)
deriving DecidableEq, Repr, Hashable

namespace UnitId

def text : UnitId → String
  | .weight group subgroup fromGroup fromSubgroup =>
    s!"w{group}.{subgroup}<-{fromGroup}.{fromSubgroup}"
  | .sum group subgroup node => s!"s{group}.{subgroup}.{node}"
  | .input group subgroup => s!"i{group}.{subgroup}"
  | .threshold group subgroup => s!"t{group}.{subgroup}"
  | .foreign text => text

/-- The digits a text starts with, as a number, and what follows them. -/
def leadingNumber (cs : List Char) : Nat × List Char :=
  (Numeric.ofDigits (cs.takeWhile Numeric.isDigit), cs.dropWhile Numeric.isDigit)

/-- Numbers of a text, read past any other characters; at most `fuel` of them. -/
def numbersIn (cs : List Char) : Nat → List Nat
  | 0 => []
  | fuel + 1 =>
    match cs.dropWhile fun c => !Numeric.isDigit c with
    | [] => []
    | rest =>
      let (number, after) := leadingNumber rest
      number :: numbersIn after fuel

/-- The identifier that a text suggests by its letter and its numbers. -/
def candidate (text : String) : UnitId :=
  match text.toList with
  | 'w' :: rest =>
    match numbersIn rest 4 with
    | [group, subgroup, fromGroup, fromSubgroup] => .weight group subgroup fromGroup fromSubgroup
    | _ => .foreign text
  | 's' :: rest =>
    match numbersIn rest 3 with
    | [group, subgroup, node] => .sum group subgroup node
    | _ => .foreign text
  | 'i' :: rest =>
    match numbersIn rest 2 with
    | [group, subgroup] => .input group subgroup
    | _ => .foreign text
  | 't' :: rest =>
    match numbersIn rest 2 with
    | [group, subgroup] => .threshold group subgroup
    | _ => .foreign text
  | _ => .foreign text

/-- The identifier with a given text. -/
def ofText (text : String) : UnitId :=
  let id := candidate text
  if id.text = text then id else .foreign text

theorem text_ofText (text : String) : (ofText text).text = text := by
  unfold ofText
  dsimp only
  split
  · assumption
  · rfl

end UnitId

end PerceptronMesh

/-!
Roles of a group and sets of them.
-/

namespace PerceptronMesh

/-- What a group is for. A group may have several roles. -/
inductive Role where
  | bias
  | input
  | output
  | hidden
deriving DecidableEq, Repr

namespace Role

def all : List Role := [.bias, .input, .output, .hidden]

def code : Role → UInt8
  | .bias => 0
  | .input => 1
  | .output => 2
  | .hidden => 3

def name : Role → String
  | .bias => "bias"
  | .input => "input"
  | .output => "output"
  | .hidden => "hidden"

def ofName? (name : String) : Option Role := all.find? (·.name == name)

end Role

/-- A set of roles. -/
structure Roles where
  bias : Bool := false
  input : Bool := false
  output : Bool := false
  hidden : Bool := false
deriving DecidableEq, Repr, Inhabited

namespace Roles

def empty : Roles := {}

def contains (roles : Roles) : Role → Bool
  | .bias => roles.bias
  | .input => roles.input
  | .output => roles.output
  | .hidden => roles.hidden

def insert (roles : Roles) : Role → Roles
  | .bias => { roles with bias := true }
  | .input => { roles with input := true }
  | .output => { roles with output := true }
  | .hidden => { roles with hidden := true }

def ofList (roles : List Role) : Roles := roles.foldl insert empty

/-- The members in the order bias, input, output, hidden. -/
def toList (roles : Roles) : List Role := Role.all.filter roles.contains

def isEmpty (roles : Roles) : Bool := roles.toList.isEmpty

def text (roles : Roles) : String :=
  "[" ++ String.intercalate ", " (roles.toList.map Role.name) ++ "]"

@[simp] theorem contains_insert (roles : Roles) (a b : Role) :
    (roles.insert a).contains b = (decide (a = b) || roles.contains b) := by
  cases a <;> cases b <;> rfl

end Roles

end PerceptronMesh

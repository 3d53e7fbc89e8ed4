/-!
Lines written one after another until a fault stops the writing.
-/

namespace PerceptronMesh.Text

structure Writing (ε : Type) where
  lines : List String
  fault : Option ε := none
deriving DecidableEq

namespace Writing

variable {ε : Type}

def ofLines (lines : List String) : Writing ε := ⟨lines, none⟩

/-- The lines of one writing and then those of another, unless the first met a
    fault. -/
def append (a b : Writing ε) : Writing ε :=
  if a.fault.isSome then a else ⟨a.lines ++ b.lines, b.fault⟩

instance : Append (Writing ε) := ⟨append⟩

/-- Lines that depend on a value which may not be had. -/
def after {α : Type} (value : Except ε α) (lines : α → List String) : Writing ε :=
  match value with
  | .ok a => ofLines (lines a)
  | .error e => ⟨[], some e⟩

def concat (parts : List (Writing ε)) : Writing ε := parts.foldr append (ofLines [])

/-- The lines, each with its line feed. -/
def text (w : Writing ε) : String := String.join (w.lines.map (· ++ "\n"))

/-- The whole text, if there was no fault. -/
def result (w : Writing ε) : Except ε String :=
  match w.fault with
  | none => .ok w.text
  | some e => .error e

theorem ofLines_append (xs ys : List String) :
    (ofLines xs ++ ofLines ys : Writing ε) = ofLines (xs ++ ys) := rfl

end Writing

end PerceptronMesh.Text

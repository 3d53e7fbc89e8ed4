/-!
The phases of a compilation.
-/

namespace PerceptronMesh

inductive CompilePhase where
  /-- Groups are split into subgroups. -/
  | partition
  /-- Units are made. -/
  | create
  /-- Units are connected. -/
  | wire
  /-- Connections are counted against the scoreboards. -/
  | audit
deriving DecidableEq, Repr

namespace CompilePhase

def all : List CompilePhase := [.partition, .create, .wire, .audit]

def next : CompilePhase → Option CompilePhase
  | .partition => some .create
  | .create => some .wire
  | .wire => some .audit
  | .audit => none

def number : CompilePhase → Nat
  | .partition => 1
  | .create => 2
  | .wire => 3
  | .audit => 4

def name : CompilePhase → String
  | .partition => "PARTITION"
  | .create => "CREATE"
  | .wire => "WIRE"
  | .audit => "AUDIT"

def text (p : CompilePhase) : String := s!"Phase {p.number}: {p.name}"

theorem next_eq_getElem? (p : CompilePhase) : p.next = all[p.number]? := by cases p <;> rfl

end CompilePhase

end PerceptronMesh

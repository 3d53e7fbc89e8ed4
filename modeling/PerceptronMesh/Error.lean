import PerceptronMesh.Error.Configuration
import PerceptronMesh.Error.Example
import PerceptronMesh.Error.Placement
import PerceptronMesh.Error.Topology
import PerceptronMesh.Error.Weights
import PerceptronMesh.Scoreboard.Mismatch
import PerceptronMesh.Wire.Reader

/-!
All faults that the library reports, by area, and their messages.
-/

namespace PerceptronMesh

/-- The areas that faults belong to. -/
inductive Area where
  | configuration
  | topology
  | examples
  | weightsFile
  | graph
  | protocol
  | placement
  | payload
  | notFound
  | file
  | wire
  | other
deriving DecidableEq, Repr

namespace Area

def all : List Area :=
  [.configuration, .topology, .examples, .weightsFile, .graph, .protocol, .placement, .payload,
    .notFound, .file, .wire, .other]

/-- The name under which tools sort faults. -/
def name : Area → String
  | .configuration => "Configuration"
  | .topology => "Topology"
  | .examples => "Example"
  | .weightsFile => "WeightsFile"
  | .graph => "Graph"
  | .protocol => "Protocol"
  | .placement => "Placement"
  | .payload => "Payload"
  | .notFound => "NotFound"
  | .file => "Io"
  | .wire => "Wire"
  | .other => "Other"

def ofName? (name : String) : Option Area := all.find? (·.name == name)

/-- What the messages of an area start with. -/
def heading : Area → String
  | .configuration => "Invalid configuration: "
  | .topology => "Topology error: "
  | .examples => "Example set error: "
  | .weightsFile => "Weights file error: "
  | .graph => "Unit graph error: "
  | .protocol => "Scoreboard protocol mismatch: "
  | .placement => "Placement service error: "
  | .payload => "Payload error: "
  | .notFound => "Resource not found: "
  | .file => "IO error: "
  | .wire => "Wire format error: "
  | .other => ""

end Area

/-- A fault with its cause. A placement service of someone else's making may
    report a fault of any area in its own words. -/
inductive Error where
  | configuration (cause : ConfigurationError)
  | topology (cause : TopologyError)
  | examples (cause : ExampleError)
  | weightsFile (cause : WeightsError)
  | graph (cause : GraphError)
  | protocol (count : Nat) (first : Mismatch)
  | placement (cause : PlacementError)
  | payload (cause : PayloadError)
  | notFound (cause : MissingError)
  | file (cause : FileError)
  | wire (cause : WireError)
  | reported (area : Area) (detail : String)
deriving DecidableEq, Repr

namespace Error

def area : Error → Area
  | .configuration _ => .configuration
  | .topology _ => .topology
  | .examples _ => .examples
  | .weightsFile _ => .weightsFile
  | .graph _ => .graph
  | .protocol _ _ => .protocol
  | .placement _ => .placement
  | .payload _ => .payload
  | .notFound _ => .notFound
  | .file _ => .file
  | .wire _ => .wire
  | .reported area _ => area

def detail : Error → String
  | .configuration cause => cause.detail
  | .topology cause => cause.detail
  | .examples cause => cause.detail
  | .weightsFile cause => cause.detail
  | .graph cause => cause.detail
  | .protocol count first => s!"{count} scoreboard mismatch(es), first: {first.message}"
  | .placement cause => cause.detail
  | .payload cause => cause.detail
  | .notFound cause => cause.detail
  | .file cause => cause.message
  | .wire cause => cause.message
  | .reported _ detail => detail

/-- The area's heading and the detail. -/
def message (e : Error) : String := e.area.heading ++ e.detail

end Error

/-- An operation's value, or the fault that kept it from having one. -/
abbrev Result (α : Type) := Except Error α

/-- A sequence of two steps succeeds exactly if both do. -/
theorem bind_eq_ok_iff {ε α β : Type} {x : Except ε α} {f : α → Except ε β} {b : β} :
    x >>= f = .ok b ↔ ∃ a, x = .ok a ∧ f a = .ok b := by
  cases x with
  | error e => simp [bind, Except.bind]
  | ok a => simp [bind, Except.bind]

theorem map_eq_ok {ε α β : Type} {x : Except ε α} {f : α → β} {b : β} (h : x.map f = .ok b) :
    ∃ a, x = .ok a ∧ b = f a := by
  cases x with
  | error e => cases h
  | ok a =>
    cases h
    exact ⟨a, rfl, rfl⟩

/-- What each step of a fold keeps, of the items gone through and of its state, holds in the end. -/
theorem foldlM_keeps {ε α β : Type} {f : β → α → Except ε β} {P : List α → β → Prop}
    (hstep : ∀ done before item after, P done before → f before item = .ok after → P (done ++ [item]) after)
    {items : List α} {first last : β} (hfirst : P [] first) (h : items.foldlM f first = .ok last) : P items last := by
  have hrest (done items : List α) (now : β) (hnow : P done now) (h : items.foldlM f now = .ok last) :
      P (done ++ items) last := by
    induction items generalizing done now with
    | nil =>
      cases h
      rw [List.append_nil]
      exact hnow
    | cons item rest ih =>
      rw [List.foldlM_cons] at h
      obtain ⟨next, hnext, hlast⟩ := bind_eq_ok_iff.1 h
      have hwhole := ih (done ++ [item]) next (hstep done now item next hnow hnext) hlast
      rwa [List.append_assoc] at hwhole
  exact hrest [] items first hfirst h

end PerceptronMesh

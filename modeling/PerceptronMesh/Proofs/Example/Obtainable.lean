import PerceptronMesh.Proofs.Example.Binding
import PerceptronMesh.Proofs.Network.Preflight
import PerceptronMesh.Proofs.Partition.Split

/-!
The sets of examples that calls can lead to. However a set came about, its compilation describes
the examples that it holds, with the events of each in one stretch of rows.
-/

namespace PerceptronMesh

open Numeric

namespace ExampleSet

/-- A set that was made empty, and then filled, changed and compiled in any order. The label and
the values of the header can be set at will; examples can only be added. -/
inductive Obtainable : ExampleSet → Prop
  | make (label : String) : Obtainable { label }
  | setLabel {s : ExampleSet} (label : String) : Obtainable s → Obtainable { s with label }
  | setHeader {s : ExampleSet} (header : SetHeader) : Obtainable s → Obtainable { s with header }
  | setTimes {s : ExampleSet} (times : Times) : Obtainable s → Obtainable (s.setTimes times)
  | addExample {s : ExampleSet} (e : Example) : Obtainable s → Obtainable (s.addExample e)
  | readText {s read : ExampleSet} {text : String} {count : Nat} :
      Obtainable s → s.readText text = .ok (count, read) → Obtainable read
  | invalidate {s : ExampleSet} : Obtainable s → Obtainable s.invalidate
  | compile {s compiled : ExampleSet} {t later : Topology} :
      Obtainable s → s.compile t = .ok (compiled, later) → Obtainable compiled

/-- The compilation is one of the examples that the set holds. -/
def Faithful (s : ExampleSet) : Prop :=
  ∀ {examples : CompiledExamples}, s.compiled = some examples →
    examples.examples = CompiledExamples.exampleRecords 0 0 s.examples

variable {s compiled : ExampleSet} {t later : Topology}

theorem faithful_of_uncompiled (h : s.compiled = none) : s.Faithful := by
  intro examples hexamples
  rw [h] at hexamples
  cases hexamples

theorem Faithful.compile (hs : s.Faithful) (h : s.compile t = .ok (compiled, later)) : compiled.Faithful := by
  obtain ⟨rfl, _⟩ | ⟨_, rfl, _⟩ := compile_eq_ok h
  · exact hs
  · intro examples hexamples
    cases hexamples
    rfl

theorem Obtainable.faithful (h : s.Obtainable) : s.Faithful := by
  induction h with
  | make label => exact faithful_of_uncompiled rfl
  | setLabel label _ ih | setHeader header _ ih => exact ih
  | setTimes times _ _ | addExample e _ _ | invalidate _ _ => exact faithful_of_uncompiled rfl
  | readText _ hread _ =>
    obtain ⟨contents, _, hread⟩ := bind_eq_ok_iff.1 hread
    cases hread
    exact faithful_of_uncompiled rfl
  | compile _ hcompile ih => exact ih.compile hcompile

/-- Events of one of the examples, 0 for one that the set does not hold. -/
def eventCount (s : ExampleSet) (example_ : Nat) : Nat := (s.examples.map (·.events.length)).getD example_ 0

/-- The row of an example's first event among those of all events. -/
def firstRow (s : ExampleSet) (example_ : Nat) : Nat := ((s.examples.map (·.events.length)).take example_).sum

theorem sum_map_length (examples : List Example) :
    (examples.map (·.events.length)).sum = (examples.flatMap (·.events)).length := by
  induction examples with
  | nil => rfl
  | cons e rest ih => rw [List.map_cons, List.sum_cons, ih, List.flatMap_cons, List.length_append]

/-- The events of an example are a range of the rows. -/
theorem firstRow_add_eventCount_le (s : ExampleSet) (example_ : Nat) :
    s.firstRow example_ + s.eventCount example_ ≤ s.events.length := by
  rw [events, ← sum_map_length]
  exact sum_take_add_le _ _

end ExampleSet

theorem CompiledExamples.length_exampleRecords (number first : Nat) (examples : List Example) :
    (exampleRecords number first examples).length = examples.length := by
  induction examples generalizing number first with
  | nil => rfl
  | cons e rest ih => rw [exampleRecords, List.length_cons, List.length_cons, ih]

theorem CompiledExamples.getElem?_exampleRecords (examples : List Example) (number first k : Nat) :
    (exampleRecords number first examples)[k]? = examples[k]?.map fun e =>
      { number := UInt32.ofNat (number + k), events := UInt32.ofNat e.events.length
        firstEvent := UInt32.ofNat (first + ((examples.map (·.events.length)).take k).sum)
        frequency := .ofBinary64 (e.frequency.getD (.ofNat 1)) } := by
  induction examples generalizing number first k with
  | nil => rfl
  | cons e rest ih =>
    cases k with
    | zero => rfl
    | succ k =>
      rw [exampleRecords, List.getElem?_cons_succ, List.getElem?_cons_succ, ih, List.map_cons,
        List.take_succ_cons, List.sum_cons, Nat.add_assoc, Nat.add_assoc, Nat.add_comm 1 k]

end PerceptronMesh

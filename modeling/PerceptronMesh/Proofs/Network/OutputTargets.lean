import PerceptronMesh.Proofs.Example.Compilation
import PerceptronMesh.Proofs.Network.OutputLayout

/-!
Whose targets stand beside recorded outputs. The row of a tick counts on from the first event of its
example, over the events of all examples. It is that of the tick's own event as long as the example
has one; a tick past the events of its example shows what the following examples have, and nothing
past the last of them.
-/

namespace PerceptronMesh

open Numeric Text

namespace ExampleSet

/-- An event of an example among the events of all examples. -/
theorem getElem?_events {s : ExampleSet} {k j : Nat} {e : Example} {event : Event}
    (he : s.examples[k]? = some e) (hevent : e.events[j]? = some event) :
    s.events[s.firstRow k + j]? = some event := by
  unfold events firstRow
  generalize s.examples = examples at he ⊢
  induction examples generalizing k with
  | nil => cases he
  | cons first rest ih =>
    cases k with
    | zero =>
      cases he
      have hlt := (List.getElem?_eq_some_iff.1 hevent).1
      rw [List.take_zero, List.sum_nil, Nat.zero_add, List.flatMap_cons, List.getElem?_append_left hlt, hevent]
    | succ k =>
      rw [List.map_cons, List.take_succ_cons, List.sum_cons, List.flatMap_cons, Nat.add_assoc,
        List.getElem?_append_right (Nat.le_add_right _ _), Nat.add_sub_cancel_left]
      exact ih he

end ExampleSet

namespace Group

variable {g : Group} {row : Nat}

theorem targetsAt_eq_rowAt (h : (row + 1) * g.units ≤ g.targets.size) :
    g.targetsAt row = Binding.rowAt g.targets g.units row := by
  rw [Nat.succ_mul] at h
  apply List.ext_getElem
  · simp only [targetsAt, Binding.rowAt, List.length_map, List.length_range, List.length_take, List.length_drop,
      Array.length_toList]
    omega
  · intro unit hunit _
    have hlt : row * g.units + unit < g.targets.size := by
      simp only [targetsAt, List.length_map, List.length_range] at hunit
      omega
    simp [targetsAt, Binding.rowAt, hlt]

theorem targetsAt_eq_replicate (h : g.targets.size ≤ row * g.units) :
    g.targetsAt row = List.replicate g.units none := by
  have hnone : ∀ unit ∈ List.range g.units, g.targets.getD (row * g.units + unit) none = none := by
    intro unit _
    have hpast : ¬ row * g.units + unit < g.targets.size := by omega
    simp [hpast]
  rw [targetsAt, List.map_congr_left hnone]
  simp

end Group

theorem Binding.Column.targetsAt {gives : Event → Group → List UnitValue → Prop} {events : List Event} {g held : Group}
    (hcolumn : Column gives events g held.targets) (hunits : held.units = g.units) :
    (∀ {row : Nat} {event : Event}, events[row]? = some event → gives event g (held.targetsAt row)) ∧
      ∀ {row : Nat}, events.length ≤ row → held.targetsAt row = List.replicate g.units none := by
  refine ⟨fun {row event} hevent => ?_, fun {row} hpast => ?_⟩
  · have hlt := (List.getElem?_eq_some_iff.1 hevent).1
    rw [Group.targetsAt_eq_rowAt (by rw [hcolumn.size_eq, hunits]; exact Nat.mul_le_mul_right _ hlt), hunits]
    exact hcolumn.row hevent
  · rw [Group.targetsAt_eq_replicate (by rw [hcolumn.size_eq, hunits]; exact Nat.mul_le_mul_right _ hpast), hunits]

theorem Topology.chained_withValues (t : Topology) (columns : Binding.Columns) :
    (t.withValues columns).chained = t.chained.map (t.storeIn columns) := by
  rw [chained, chained, List.map_filterMap]
  congr 1
  funext id
  rw [group?, group?, withValues_eq, List.getElem?_map]

namespace OutputText

/-- Of a group only its number of units matters, next to its outputs and targets. -/
theorem layout_map {change : Group → Group} (hunits : ∀ g, (change g).units = g.units) (groups : List Group)
    (figure : UInt32) (ticks : List TickRecord) (outputs : Nat → Group → List UInt16)
    (targets : TickRecord → Group → List UnitValue) :
    layout (groups.map change) figure ticks outputs targets =
      layout groups figure ticks (fun i g => outputs i (change g)) fun record g => targets record (change g) := by
  unfold layout opening block
  simp only [List.length_map, List.flatMap_map, hunits]

end OutputText

theorem Text.Writing.result_eq_ok_iff {ε : Type} {w : Writing ε} {text : String} :
    w.result = .ok text ↔ w.fault = none ∧ w.text = text := by
  unfold result
  cases w.fault <;> simp

namespace OutputText

variable {t bound : Topology} {s compiled : ExampleSet}

/-- Whenever there is a text, the targets beside a tick of an event of its example are those that
the event gives. Every tick names an example of the set, but its event may lie past the example's;
then the targets are those of the event that follows as far behind, or absent if none does. -/
theorem targets_of_text (ht : t.Obtained) (hchains : t.ChainsOutputs) (hs : s.compiled = none)
    (hcompile : s.compile t = .ok (compiled, bound)) {settings : Settings} {recorded : RecordedOutputs}
    {text : String} (h : (outputText bound compiled settings recorded).result = .ok text) :
    ∃ (outputs : Nat → Group → List UInt16) (targets : TickRecord → Group → List UnitValue),
      text = (Writing.ofLines
        (layout t.outputGroups (ticksOnFirstExample s settings) recorded.ticks outputs targets) : Writing Error).text ∧
      ∀ record ∈ recorded.ticks, ∃ e, s.examples[record.example_.toNat]? = some e ∧ ∀ g ∈ t.outputGroups,
        (∀ event, e.events[record.event.toNat]? = some event →
          Binding.RowOf t s.header.defaults .target event g (targets record g)) ∧
        (e.events.length ≤ record.event.toNat →
          (∀ later, s.events[s.firstRow record.example_.toNat + record.event.toNat]? = some later →
            Binding.RowOf t s.header.defaults .target later g (targets record g)) ∧
          (s.events.length ≤ s.firstRow record.example_.toNat + record.event.toNat →
            targets record g = List.replicate g.units none)) := by
  obtain ⟨hfault, rfl⟩ := Writing.result_eq_ok_iff.1 h
  obtain ⟨_, _, _, hcompiled⟩ | ⟨_, rfl, columns, hcolumns, rfl⟩ := ExampleSet.compile_eq_ok hcompile
  · rw [hs] at hcompiled
    cases hcompiled
  have hsound : (t.withValues columns).Sound := ht.sound.of_frame (Topology.frame_withValues t columns).symm
  obtain ⟨hheld, outputs, houtputs⟩ := exists_outputs_of_fault hsound hfault
  have hlayout := outputText_eq_layout hsound hheld houtputs
  have hunits (g : Group) : (t.storeIn columns g).units = g.units := rfl
  rw [Topology.chained_withValues, ht.sound.chained_eq hchains, layout_map hunits] at hlayout
  refine ⟨_, _, congrArg Writing.text hlayout, fun record hrecord => ?_⟩
  have he : s.examples[record.example_.toNat]? = some _ := List.getElem?_eq_getElem (hheld record hrecord)
  refine ⟨_, he, fun g hg => ?_⟩
  have hall := Binding.columnsOf_columns ht.sound hcolumns .target
  have hcolumn : Binding.Column (Binding.RowOf t s.header.defaults .target) s.events g (t.storeIn columns g).targets :=
    ht.sound.valuesOn_storeIn_of_mem hall hg
  obtain ⟨hrow, hpast⟩ := hcolumn.targetsAt (hunits g)
  exact ⟨fun event hevent => hrow (ExampleSet.getElem?_events he hevent),
    fun _ => ⟨fun later hlater => hrow hlater, fun hend => hpast hend⟩⟩

/-- The second of two examples is recorded, and its own target stands beside the output. -/
theorem targets_of_text_second_example :
    let s : ExampleSet := {
      label := "set"
      examples := [{ events := [.targeted (.zero false)] }, { events := [.targeted (.ofNat 1)] }] }
    let recorded : RecordedOutputs := { ticks := [⟨0, 1, 0, 1⟩], outputs := [⟨1, 0, 1, [0, 128]⟩] }
    ∃ t id grown compiled bound, Topology.make 32 = .ok t ∧
      t.addGroup 1 (Roles.ofList [.output]) none none (some "out") = .ok (id, grown) ∧ s.compiled = none ∧
      s.compile grown = .ok (compiled, bound) ∧
      (outputText bound compiled {} recorded).result =
        .ok "0 1\n2 1\n0 -1\n1 1\n0.000000 0\n1 0\n1 1\n1.000000 1\n" ∧
      ∃ targets : TickRecord → Group → List UnitValue, ∀ g ∈ grown.outputGroups,
        Binding.RowOf grown s.header.defaults .target (.targeted (.ofNat 1)) g (targets ⟨0, 1, 0, 1⟩ g) := by
  intro s recorded
  obtain ⟨t, id, grown, compiled, bound, hmake, hgrown, hcompile, htext⟩ : ∃ t id grown compiled bound,
      Topology.make 32 = .ok t ∧
      t.addGroup 1 (Roles.ofList [.output]) none none (some "out") = .ok (id, grown) ∧
      s.compile grown = .ok (compiled, bound) ∧
      (outputText bound compiled {} recorded).result =
        .ok "0 1\n2 1\n0 -1\n1 1\n0.000000 0\n1 0\n1 1\n1.000000 1\n" := ⟨_, _, _, _, _, rfl, rfl, rfl, by decide⟩
  have hchains : grown.ChainsOutputs := (Topology.Reachable.addGroup (.make hmake) hgrown).chainsOutputs
  obtain ⟨_, targets, _, hticks⟩ := targets_of_text (.addGroup (.make hmake) hgrown) hchains rfl hcompile htext
  obtain ⟨e, he, hgroups⟩ := hticks _ List.mem_cons_self
  cases he
  exact ⟨t, id, grown, compiled, bound, hmake, hgrown, rfl, hcompile, htext, targets,
    fun g hg => (hgroups g hg).1 _ rfl⟩

/-- A tick of the first example that names a second event, which this example does not have, shows
the target of the other example. -/
theorem targets_of_next_example :
    let s : ExampleSet := {
      label := "set"
      examples := [{ events := [.targeted (.zero false)] }, { events := [.targeted (.ofNat 1)] }] }
    let recorded : RecordedOutputs := { ticks := [⟨0, 0, 1, 2⟩], outputs := [⟨1, 0, 1, [0, 128]⟩] }
    s.examples[0]?.map (·.events[1]?) = some none ∧
      ∃ t id grown compiled bound, Topology.make 32 = .ok t ∧
        t.addGroup 1 (Roles.ofList [.output]) none none (some "out") = .ok (id, grown) ∧ s.compiled = none ∧
        s.compile grown = .ok (compiled, bound) ∧
        (outputText bound compiled {} recorded).result =
          .ok "0 0\n2 1\n0 -1\n1 1\n0.000000 0\n2 1\n1 1\n1.000000 1\n" := by
  intro s recorded
  exact ⟨by decide, _, _, _, _, _, rfl, rfl, rfl, rfl, by decide⟩

end OutputText

end PerceptronMesh

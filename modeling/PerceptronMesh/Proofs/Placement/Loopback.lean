import PerceptronMesh.Proofs.Payload.Core
import PerceptronMesh.Proofs.Placement.Routing
import PerceptronMesh.Proofs.Placement.Step
import PerceptronMesh.Proofs.Wire.Reader

/-!
The loopback service. As long as it is running it refuses a graph only for want of keys, takes
every payload it is given, writes regions that units have, and runs a stage that all loaded
units hold.
-/

namespace PerceptronMesh

open Numeric

/-- Bytes of a Core region up to the last flag that is read from it. -/
def Echo.OutputFlags.width : Nat := 15

/-- A Core region that is long enough holds all flags that are read from it. -/
theorem Echo.OutputFlags.exists_read {core : List UInt8} (h : width ≤ core.length) :
    ∃ flags, OutputFlags.read core = .ok flags := by
  have hsize : 15 ≤ (Wire.Reader.ofBytes core).rest.length := h
  obtain ⟨_, afterOutput, houtput, _⟩ := Wire.Reader.exists_u8 (r := .ofBytes core) (by omega)
  obtain ⟨beforeUnits, hpad, _⟩ := Wire.Reader.exists_skip (r := afterOutput) 3 (by omega)
  obtain ⟨_, afterUnits, hunits, _⟩ := Wire.Reader.exists_u32 (r := beforeUnits) (by omega)
  obtain ⟨beforeWrite, hskip, _⟩ := Wire.Reader.exists_skip (r := afterUnits) 5 (by omega)
  obtain ⟨_, afterWrite, hwrite, _⟩ := Wire.Reader.exists_u8 (r := beforeWrite) (by omega)
  obtain ⟨_, last, hlast, _⟩ := Wire.Reader.exists_u8 (r := afterWrite) (by omega)
  exact ⟨_, bind_eq_ok_iff.2 ⟨_, houtput, bind_eq_ok_iff.2 ⟨_, hpad, bind_eq_ok_iff.2 ⟨_, hunits,
    bind_eq_ok_iff.2 ⟨_, hskip, bind_eq_ok_iff.2 ⟨_, hwrite, bind_eq_ok_iff.2 ⟨_, hlast, rfl⟩⟩⟩⟩⟩⟩⟩

/-- A filter of results succeeds if each of them does. -/
theorem exists_filterMapM {ε α β : Type} {f : α → Except ε (Option β)}
    (h : ∀ item, ∃ found, f item = .ok found) (items : List α) : ∃ found, items.filterMapM f = .ok found := by
  induction items with
  | nil => exact ⟨[], rfl⟩
  | cons item rest ih =>
    obtain ⟨found, hfound⟩ := h item
    obtain ⟨others, hothers⟩ := ih
    rw [List.filterMapM_cons]
    cases found with
    | none => exact ⟨others, bind_eq_ok_iff.2 ⟨none, hfound, hothers⟩⟩
    | some value =>
      exact ⟨value :: others, bind_eq_ok_iff.2 ⟨some value, hfound, bind_eq_ok_iff.2 ⟨others, hothers, rfl⟩⟩⟩

namespace Loopback

variable {s : Loopback}

theorem checkRunning_ok (h : s.stopped = false) (call : ServiceCall) : checkRunning call s = .ok () s := by
  unfold checkRunning
  rw [Step.bind_ok (x := get) rfl, h]
  rfl

/-- The service after it placed a graph. -/
def placed (s : Loopback) (g : Graph) (table : RoutingTable) : Loopback :=
  { s with
    thresholds := g.unitsWithRole .threshold
    cursor := 0
    placeCalls := s.placeCalls + 1
    routing := some table }

/-- A running service places a graph, unless the last key would not fit a word. -/
theorem place_cases (h : s.stopped = false) (g : Graph) :
    (g.partitions.length * s.keySpace ≤ maxWord32 ∧ ∃ table, table.Covers g ∧
        place g s = .ok table (s.placed g table)) ∨
      (maxWord32 < g.partitions.length * s.keySpace ∧
        ∃ name, place g s = .error (.placement (.keysExhausted name)) s) := by
  have hstart : 0 * s.keySpace ≤ maxWord32 := by
    rw [Nat.zero_mul]
    exact Nat.zero_le _
  unfold place
  rw [Step.bind_ok (checkRunning_ok h .place), Step.bind_ok (x := get) rfl]
  obtain ⟨hfits, keys, hkeys, hnames⟩ | ⟨hexceeds, name, hfault⟩ := allocate_cases hstart g.partitions
  · rw [Nat.zero_add] at hfits
    refine .inl ⟨hfits, .ofList keys, ?_, ?_⟩
    · intro partition hpartition
      apply RoutingTable.exists_key_ofList
      rw [hnames]
      exact List.mem_map_of_mem hpartition
    · rw [Step.bind_ok (Step.ofResult_ok hkeys)]
      rfl
  · rw [Nat.zero_add] at hexceeds
    refine .inr ⟨hexceeds, name, ?_⟩
    rw [Step.bind_error (Step.ofResult_error hfault)]

/-- Payloads for units that differ are kept in their order. -/
theorem foldl_putPayload {held payloads : List UnitPayload} (h : ((held ++ payloads).map (·.unit)).Nodup) :
    payloads.foldl putPayload held = held ++ payloads := by
  induction payloads generalizing held with
  | nil => simp
  | cons p rest ih =>
    have hnew : held.any (·.unit == p.unit) = false := by
      rw [List.any_eq_false]
      intro other hother hsame
      rw [List.map_append, List.nodup_append] at h
      exact h.2.2 _ (List.mem_map_of_mem hother) _ (List.mem_map_of_mem List.mem_cons_self) (eq_of_beq hsame)
    have hput : putPayload held p = held ++ [p] := by
      unfold putPayload
      rw [hnew]
      rfl
    have hrest : (((held ++ [p]) ++ rest).map (·.unit)).Nodup := by
      rw [List.append_assoc, List.singleton_append]
      exact h
    rw [List.foldl_cons, hput, ih hrest, List.append_assoc, List.singleton_append]

theorem load_ok (h : s.stopped = false) {table : RoutingTable} (hrouting : s.routing = some table)
    {payloads : List UnitPayload} (hunits : (payloads.map (·.unit)).Nodup) :
    load payloads s = .ok () { s with payloads } := by
  have hplaced : s.routing.isNone = false := by
    rw [hrouting]
    rfl
  have hload : payloads.foldl putPayload [] = payloads := foldl_putPayload hunits
  unfold load
  rw [Step.bind_ok (checkRunning_ok h .load), Step.bind_ok (x := get) rfl, hplaced]
  show EStateM.Result.ok () { s with payloads := payloads.foldl putPayload [] } = _
  rw [hload]

/-- A region is written that the unit has. -/
theorem updateRegion_ok (h : s.stopped = false) {unit : UnitId} {p : UnitPayload}
    (hp : s.payload? unit = some p) {region : Region} (hregion : p.hasRegion region = true)
    (data : List UInt8) :
    updateRegion unit region data s = .ok () { s with
      payloads := putPayload s.payloads (p.setRegion region data)
      updates := s.updates.push ⟨unit, region, data.length⟩ } := by
  unfold updateRegion
  rw [Step.bind_ok (checkRunning_ok h .updateRegion), Step.bind_ok (x := get) rfl, hp]
  simp only [hregion]
  rfl

section Units

variable {units : List MeshUnit} {payload : MeshUnit → UnitPayload}
  (hids : (units.map (·.id)).Nodup) (hpayload : ∀ u ∈ units, (payload u).unit = u.id)
include hids hpayload

theorem payload?_of_units (hs : s.payloads = units.map payload) {u : MeshUnit} (hu : u ∈ units) :
    s.payload? u.id = some (payload u) := by
  have hmem : payload u ∈ units.map payload := List.mem_map_of_mem hu
  unfold payload?
  rw [hs]
  cases hfind : (units.map payload).find? (·.unit == u.id) with
  | none =>
    rw [List.find?_eq_none] at hfind
    exact absurd (beq_iff_eq.2 (hpayload u hu)) (hfind _ hmem)
  | some found =>
    obtain ⟨other, hother, rfl⟩ := List.mem_map.1 (List.mem_of_find?_eq_some hfind)
    have hid : other.id = u.id := by
      rw [← hpayload other hother]
      simpa using List.find?_some hfind
    rw [List.inj_on_of_nodup_map hids hother hu hid]

/-- Putting one unit's payload leaves those of the others. -/
theorem putPayload_of_units {u : MeshUnit} (hu : u ∈ units) {p : UnitPayload} (hp : p.unit = u.id) :
    putPayload (units.map payload) p = units.map fun other => if other = u then p else payload other := by
  have hheld : (units.map payload).any (·.unit == p.unit) = true := by
    rw [List.any_eq_true]
    exact ⟨payload u, List.mem_map_of_mem hu, by rw [hpayload u hu, hp]; exact beq_self_eq_true _⟩
  unfold putPayload
  rw [if_pos hheld, List.map_map]
  apply List.map_congr_left
  intro other hother
  simp only [Function.comp_apply, hpayload other hother, hp]
  by_cases hsame : other = u
  · rw [if_pos hsame, if_pos (congrArg MeshUnit.id hsame)]
  · rw [if_neg hsame, if_neg (fun hid => hsame (List.inj_on_of_nodup_map hids hother hu hid))]

end Units

/-- The recording flags of every loaded unit can be read. -/
theorem exists_writers
    (h : ∀ p ∈ s.payloads, ∃ core, p.region? .core = some core ∧ SumCore.size ≤ core.length) :
    ∃ writers, s.writers = .ok writers := by
  unfold writers
  refine exists_filterMapM (fun u => ?_) _
  cases hp : s.payload? u.id with
  | none => exact ⟨none, rfl⟩
  | some p =>
    obtain ⟨core, hcore, hlength⟩ := h p (List.mem_of_find?_eq_some hp)
    obtain ⟨flags, hflags⟩ := Echo.OutputFlags.exists_read ((show _ ≤ SumCore.size by decide).trans hlength)
    simp only [Echo.writer?, hcore, hflags]
    exact ⟨_, rfl⟩

theorem nextTestResults_ok (s : Loopback) (stage : StageDescriptor) :
    ∃ results rest, nextTestResults stage s = .ok results { s with queued := rest } := by
  unfold nextTestResults
  rw [Step.bind_ok (x := get) rfl]
  cases hqueued : s.queued with
  | nil => exact ⟨_, s.queued, rfl⟩
  | cons results rest => exact ⟨results, rest, rfl⟩

/-- What a stage leaves as it was: the service runs on, with all it was given. -/
structure KeepsUnits (s later : Loopback) : Prop where
  payloads_eq : later.payloads = s.payloads
  stopped_eq : later.stopped = s.stopped
  thresholds_eq : later.thresholds = s.thresholds

/-- What a stage records, and where the cursor stands after it. -/
def Records (s : Loopback) (stage : StageDescriptor) (outputs : Option RecordedOutputs) (cursor : UInt32) : Prop :=
  ∃ writers, s.writers = .ok writers ∧ Echo.record writers stage s.cursor = (outputs, cursor)

theorem recordOutputs_ok (stage : StageDescriptor) {writers : List Echo.Writer} (hwriters : s.writers = .ok writers) :
    ∃ outputs later, recordOutputs stage s = .ok outputs later ∧ s.KeepsUnits later ∧ later.runs = s.runs ∧
      s.Records stage outputs later.cursor := by
  have hmapped : s.writers.mapError Error.wire = .ok writers := by rw [hwriters]; rfl
  unfold recordOutputs
  rw [Step.bind_ok (x := get) rfl, Step.bind_ok (Step.ofResult_ok hmapped)]
  exact ⟨_, _, rfl, ⟨rfl, rfl, rfl⟩, rfl, writers, hwriters, rfl⟩

/-- A stage runs to its end if all units hold it and their recording flags can be read. -/
theorem run_ok (h : s.stopped = false) (stage : StageDescriptor) (hne : s.payloads ≠ [])
    (hstage : ∀ p ∈ s.payloads, p.region? .stage = some stage.bytes) {writers : List Echo.Writer}
    (hwriters : s.writers = .ok writers) :
    ∃ report later, run stage s = .ok report later ∧ s.KeepsUnits later ∧ later.runs = s.runs.push stage ∧
      s.Records stage report.outputs later.cursor := by
  have hfresh : s.staleUnit? stage = none := by
    unfold staleUnit?
    rw [Option.map_eq_none_iff, List.find?_eq_none]
    intro p hp
    rw [hstage p hp]
    simp
  have hloaded : s.payloads.isEmpty = false := by
    rw [List.isEmpty_eq_false_iff]
    exact hne
  unfold run
  rw [Step.bind_ok (checkRunning_ok h .run), Step.bind_ok (x := get) rfl, hloaded, hfresh]
  cases hmode : stage.mode with
  | train =>
    obtain ⟨outputs, later, houtputs, hkeeps, hruns, hrecords⟩ := recordOutputs_ok (s := { s with
      runs := s.runs.push stage, epochsTrained := s.epochsTrained + stage.epochs }) stage hwriters
    exact ⟨_, later, Step.bind_ok houtputs, ⟨hkeeps.payloads_eq, hkeeps.stopped_eq, hkeeps.thresholds_eq⟩, hruns,
      hrecords⟩
  | test =>
    obtain ⟨results, rest, hresults⟩ := nextTestResults_ok { s with runs := s.runs.push stage } stage
    obtain ⟨outputs, later, houtputs, hkeeps, hruns, hrecords⟩ := recordOutputs_ok (s := { s with
      runs := s.runs.push stage, queued := rest }) stage hwriters
    exact ⟨_, later, (Step.bind_ok (Step.map_ok hresults)).trans (Step.bind_ok houtputs),
      ⟨hkeeps.payloads_eq, hkeeps.stopped_eq, hkeeps.thresholds_eq⟩, hruns, hrecords⟩

end Loopback

end PerceptronMesh

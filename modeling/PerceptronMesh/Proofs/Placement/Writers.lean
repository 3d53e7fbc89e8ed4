import PerceptronMesh.Proofs.Compile.Audit
import PerceptronMesh.Proofs.Partition.Split
import PerceptronMesh.Proofs.Payload.Threshold
import PerceptronMesh.Proofs.Placement.Loopback
import PerceptronMesh.Proofs.Topology.Filled
import PerceptronMesh.Proofs.Topology.Outputs

/-!
The subgroups that record, as the loopback finds them. It looks at bytes alone, and finds the
subgroups of the output groups in their order, each with the targets of its own units.
-/

namespace PerceptronMesh

open Fixed Numeric

/-- A filter of results that picks some of the items and gives each of them a value. -/
theorem exists_filterMapM_forall₂ {ε α β γ : Type} {f : α → Except ε (Option β)} {pick : α → Option γ}
    {R : γ → β → Prop} {items : List α}
    (h : ∀ item ∈ items, (pick item = none ∧ f item = .ok none) ∨
      ∃ key value, pick item = some key ∧ f item = .ok (some value) ∧ R key value) :
    ∃ values, items.filterMapM f = .ok values ∧ List.Forall₂ R (items.filterMap pick) values := by
  induction items with
  | nil => exact ⟨[], rfl, .nil⟩
  | cons item rest ih =>
    obtain ⟨values, hvalues, hrest⟩ := ih fun other hother => h other (List.mem_cons_of_mem _ hother)
    rw [List.filterMapM_cons]
    obtain ⟨hpick, hnone⟩ | ⟨key, value, hpick, hsome, hvalue⟩ := h item List.mem_cons_self
    · rw [List.filterMap_cons_none hpick]
      exact ⟨values, bind_eq_ok_iff.2 ⟨none, hnone, hvalues⟩, hrest⟩
    · rw [List.filterMap_cons_some hpick]
      exact ⟨value :: values, bind_eq_ok_iff.2 ⟨some value, hsome, bind_eq_ok_iff.2 ⟨values, hvalues, rfl⟩⟩,
        .cons hvalue hrest⟩

/-- Whether only the last event of an example is recorded. -/
def Recording.lastOnly (r : Recording) : Bool := !r.outputs || r.lastTickOnly

namespace Echo

variable {s : PayloadSource} {g : Group} {x : Subgroup} {p : UnitPayload}

/-- A writer reads the targets and examples that its group and the source hold. A row that the
group does not have reads as absent values. -/
structure Writer.Reads (w : Writer) (s : PayloadSource) (g : Group) (subgroup : Nat) : Prop where
  group_eq : w.group = g.id
  subgroup_eq : w.subgroup = subgroup
  units_eq : w.units = g.subgroupUnits subgroup
  lastTickOnly_eq : w.lastTickOnly = s.recording.lastOnly
  target_eq : ∀ (row : Nat) {unit : Nat}, unit < w.units →
    w.targets.getD (row * w.units + unit) absentRaw =
      (Value.ofOption (g.targets.getD (row * g.units + g.subgroupOffset subgroup + unit) none) : Activation).raw
  spans_eq : eventSpans ((w.payload.region? .examples).getD []) =
    s.examples.examples.map fun r => ⟨r.events.toNat, r.firstEvent.toNat⟩

/-- A Threshold unit is a writer if its group is an output group. -/
theorem writer?_of_regions (hregions : s.ThresholdRegions g x p) (hid : x.group = g.id)
    (hunits : g.subgroupUnits x.subgroup = x.units) (hsmall : x.units ≤ maxWord32)
    (hwhole : g.units ∣ g.targets.size) (hwrites : g.writeOut = g.roles.output) :
    (g.roles.output = false ∧ writer? x.group x.subgroup p = .ok none) ∨
      ∃ w, g.roles.output = true ∧ writer? x.group x.subgroup p = .ok (some w) ∧ w.Reads s g x.subgroup := by
  have hread : writer? x.group x.subgroup p = .ok (if g.roles.output && g.writeOut then some
      { group := x.group, subgroup := x.subgroup, payload := p
        units := (UInt32.ofNat x.units).toNat, lastTickOnly := s.recording.lastOnly
        targets := (signedWords ((p.region? .targets).getD [])).toArray } else none) := by
    unfold writer?
    rw [hregions.core]
    simp only [OutputFlags.read_bytes]
    rfl
  rw [hwrites, Bool.and_self] at hread
  cases houtput : g.roles.output with
  | false =>
    rw [houtput] at hread
    exact .inl ⟨rfl, hread⟩
  | true =>
    rw [houtput] at hread
    have hword : (UInt32.ofNat x.units).toNat = x.units := UInt32.toNat_ofNat_of_lt (Nat.lt_succ_of_le hsmall)
    refine .inr ⟨_, rfl, hread, hid, rfl, ?_, rfl, ?_, ?_⟩
    · rw [hunits, hword]
    · intro row unit hunit
      rw [hword] at hunit ⊢
      rw [hregions.targets, signedWords_bytes]
      exact PayloadSource.getD_partOf hwhole hunit
    · rw [hregions.examples, Option.getD_some, eventSpans_bytes]

end Echo

namespace Loopback

variable {service : Loopback}

/-- What the service finds of one of its Threshold units. -/
def writerOf? (service : Loopback) (u : MeshUnit) : Except WireError (Option Echo.Writer) :=
  match service.payload? u.id with
  | none => pure none
  | some payload => Echo.writer? u.group u.subgroup payload

theorem writers_eq (service : Loopback) : service.writers = service.thresholds.filterMapM service.writerOf? := rfl

theorem KeepsUnits.writers_eq {later : Loopback} (h : service.KeepsUnits later) : later.writers = service.writers := by
  unfold writers payload?
  rw [h.thresholds_eq, h.payloads_eq]

/-- The writers of a loaded graph are the subgroups of the output groups, in their order. -/
theorem exists_writers_of_build {s : PayloadSource} {limits : Limits} {stage : StageDescriptor}
    (ht : s.topology.Sound) (hfilled : s.topology.Filled) (hcompile : compile s.topology limits = .ok s.compiled)
    (hwrites : s.topology.WritesOutputs) (hsmall : limits.maxGroupUnits ≤ maxWord32)
    (hthresholds : service.thresholds = s.compiled.graph.unitsWithRole .threshold)
    (hloaded : ∀ u ∈ s.compiled.graph.units, ∃ p, service.payload? u.id = some p ∧ s.build u stage = .ok p) :
    ∃ writers, service.writers = .ok writers ∧
      List.Forall₂ (fun recorder w => w.Reads s recorder.1 recorder.2) s.topology.outputSubgroups writers := by
  obtain ⟨hplan, _, hdrawn⟩ := ht.compile_eq_ok hcompile
  have hunits : service.thresholds = s.compiled.plan.subgroups.map MeshUnit.threshold := by
    rw [hthresholds, Graph.unitsWithRole, hdrawn.units_eq]
    exact Plan.filter_units_role (fun _ => rfl) (by decide) (by decide)
  have hsubgroups : s.compiled.plan.subgroups = enumerateSubgroups s.topology.groups 0 := by
    rw [(Plan.make_eq_ok_iff.1 hplan).2.2]
  have hrecorders : service.thresholds.filterMap (fun u => s.topology.recorder? u.group u.subgroup) =
      s.topology.outputSubgroups := by
    rw [hunits, hsubgroups, List.filterMap_map, ← ht.filterMap_recorder?]
    rfl
  have hwriter : ∀ u ∈ service.thresholds, (s.topology.recorder? u.group u.subgroup = none ∧
      service.writerOf? u = .ok none) ∨
        ∃ recorder w, s.topology.recorder? u.group u.subgroup = some recorder ∧
          service.writerOf? u = .ok (some w) ∧ w.Reads s recorder.1 recorder.2 := by
    intro u hu
    rw [hunits] at hu
    obtain ⟨x, hx, rfl⟩ := List.mem_map.1 hu
    obtain ⟨p, hp, hbuild⟩ := hloaded _ (hdrawn.mem_units_iff.2 (.threshold hx))
    obtain ⟨g, hg, hid, hown, hfit, hsize⟩ := ht.exists_range_of_subgroup hplan hx
    have hmem : g ∈ s.topology.groups := List.mem_of_getElem? hg
    have hrecorder : s.topology.recorder? x.group x.subgroup =
        if g.roles.output then some (g, x.subgroup) else none := by rw [Topology.recorder?, hg, Option.bind_some]
    have hregions := PayloadSource.thresholdRegions_of_build hg hfit hbuild
    have hfound : service.writerOf? (.threshold x) = Echo.writer? x.group x.subgroup p := by rw [writerOf?, hp]; rfl
    rw [hfound]
    obtain ⟨houtput, hnone⟩ | ⟨w, houtput, hsome, hreads⟩ := Echo.writer?_of_regions hregions hid hown
      (by omega) (hfilled g hmem).targets (hwrites g hmem)
    · exact .inl ⟨hrecorder.trans (if_neg (by simp [houtput])), hnone⟩
    · exact .inr ⟨(g, x.subgroup), w, hrecorder.trans (if_pos houtput), hsome, hreads⟩
  obtain ⟨found, hfound, hreads⟩ := exists_filterMapM_forall₂
    (R := fun (recorder : Group × Nat) (w : Echo.Writer) => w.Reads s recorder.1 recorder.2) hwriter
  rw [hrecorders] at hreads
  exact ⟨found, service.writers_eq.trans hfound, hreads⟩

end Loopback

end PerceptronMesh

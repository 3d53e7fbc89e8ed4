import PerceptronMesh.Proofs.Example.Lists
import PerceptronMesh.Proofs.Placement.Failed

/-!
Stages run in parts. The loopback presents examples in turn from a cursor that the stages share, and
what it records at a presentation depends on the example alone. So stages that go on where the one
before them stopped present and record together what one stage does with as many presentations.
-/

namespace PerceptronMesh

open Numeric

/-- What a tick says besides its epoch. -/
def TickRecord.entry (r : TickRecord) : UInt32 × UInt32 × UInt32 := (r.example_, r.event, r.tick)

namespace RecordedOutputs

/-- The output subgroups with their sizes. -/
def subgroupSizes (r : RecordedOutputs) : List (GroupId × Nat × Nat) :=
  r.outputs.map fun o => (o.group, o.subgroup, o.units)

/-- The outputs of the subgroup at a position. -/
def block (r : RecordedOutputs) (position : Nat) : List UInt8 := (r.outputs[position]?.map (·.data)).getD []

/-- A recording holds what others hold one after another. -/
structure JoinedFrom (whole : RecordedOutputs) (parts : List RecordedOutputs) : Prop where
  entries_eq : whole.ticks.map TickRecord.entry = parts.flatMap fun part => part.ticks.map TickRecord.entry
  subgroups_eq : ∀ part ∈ parts, part.subgroupSizes = whole.subgroupSizes
  block_eq : ∀ position, whole.block position = parts.flatMap fun part => part.block position

end RecordedOutputs

namespace Echo

/-- The examples presented one after another from a cursor on, among those that are held. -/
def examplesFrom (held : Nat) (cursor : UInt32) : (count : Nat) → List Nat
  | 0 => []
  | count + 1 => cursor.toNat % held :: examplesFrom held (cursor + 1) count

variable {held : Nat} {cursor : UInt32}

theorem ofNat_succ_add (cursor : UInt32) (n : Nat) : cursor + UInt32.ofNat (n + 1) = cursor + 1 + UInt32.ofNat n := by
  rw [UInt32.ofNat_add, UInt32.add_comm (UInt32.ofNat n), UInt32.add_assoc]
  rfl

/-- Presentations go on where others stopped, also where the cursor wraps. -/
theorem examplesFrom_add (held : Nat) (cursor : UInt32) (first second : Nat) :
    examplesFrom held cursor (first + second) =
      examplesFrom held cursor first ++ examplesFrom held (cursor + UInt32.ofNat first) second := by
  induction first generalizing cursor with
  | zero => simp [examplesFrom]
  | succ first ih =>
    rw [Nat.add_right_comm, examplesFrom, examplesFrom, ih, List.cons_append, ofNat_succ_add]

theorem examplesFrom_eq_map (held : Nat) (cursor : UInt32) (count : Nat) :
    examplesFrom held cursor count = (List.range count).map fun n => (cursor + UInt32.ofNat n).toNat % held := by
  induction count with
  | zero => rfl
  | succ count ih =>
    rw [examplesFrom_add, ih, List.range_succ, List.map_append]
    rfl

end Echo

/-- Presentations of all epochs. -/
def StageDescriptor.presented (stage : StageDescriptor) : Nat := stage.epochs.toNat * stage.examples.toNat

namespace Echo

theorem map_presentations (stage : StageDescriptor) (cursor : UInt32) (held : Nat) :
    (presentations stage cursor held).map (·.2) = examplesFrom held cursor stage.presented := by
  rw [examplesFrom_eq_map, StageDescriptor.presented, ← flatMap_rows, presentations_eq, List.map_flatMap]
  refine List.flatMap_congr fun epoch _ => ?_
  rw [List.map_map]
  rfl

/-- What recording depends on of a writer's unit. -/
def Writer.bare (w : Writer) : Writer :=
  { w with payload := { w.payload with regions := (w.payload.region? .examples).toList.map (Region.examples, ·) } }

theorem Writer.examples_bare (w : Writer) : w.bare.payload.region? .examples = w.payload.region? .examples := by
  show List.lookup _ ((w.payload.region? .examples).toList.map (Region.examples, ·)) = _
  cases w.payload.region? .examples with
  | none => rfl
  | some data => simp

/-- The events of the examples, as the first writer has them. -/
def spansOf : List Writer → List EventSpan
  | [] => []
  | first :: _ => eventSpans ((first.payload.region? .examples).getD [])

theorem spansOf_bare (writers : List Writer) : spansOf (writers.map Writer.bare) = spansOf writers := by
  cases writers with
  | nil => rfl
  | cons first rest => rw [List.map_cons, spansOf, Writer.examples_bare, spansOf]

theorem record_bare (writers : List Writer) (stage : StageDescriptor) (cursor : UInt32) :
    record (writers.map Writer.bare) stage cursor = record writers stage cursor := by
  cases writers with
  | nil => rfl
  | cons first rest =>
    have hany : ((first :: rest).map Writer.bare).any (·.lastTickOnly) = (first :: rest).any (·.lastTickOnly) := by
      rw [List.any_map]
      rfl
    rw [List.map_cons] at hany ⊢
    unfold record
    dsimp only
    rw [hany, Writer.examples_bare, ← List.map_cons, List.map_map]
    rfl

/-- What some writers record when examples are presented. -/
structure Answers (writers : List Writer) (examples : List Nat) (recording : RecordedOutputs) : Prop where
  entries_eq : recording.ticks.map TickRecord.entry = examples.flatMap fun example_ =>
    (moments (writers.any (·.lastTickOnly)) (spansOf writers).toArray 0 example_).map (·.record.entry)
  outputs_eq : recording.outputs = writers.map fun w =>
    { group := w.group, subgroup := w.subgroup, units := w.units
      data := examples.flatMap fun example_ =>
        (moments (writers.any (·.lastTickOnly)) (spansOf writers).toArray 0 example_).flatMap fun m => w.tick m.row }

variable {writers : List Writer} {spans : Array EventSpan} {lastOnly : Bool}

theorem map_entry_moments (epoch example_ : Nat) :
    (moments lastOnly spans epoch example_).map (·.record.entry) =
      (moments lastOnly spans 0 example_).map (·.record.entry) := by
  unfold moments
  rw [List.map_map, List.map_map]
  rfl

theorem flatMap_tick_moments (w : Writer) (epoch example_ : Nat) :
    (moments lastOnly spans epoch example_).flatMap (fun m => w.tick m.row) =
      (moments lastOnly spans 0 example_).flatMap fun m => w.tick m.row := by
  unfold moments
  rw [List.flatMap_map, List.flatMap_map]

/-- What a stage records follows from the examples that it presents, whatever their epochs. -/
theorem record_answers (hspans : spansOf writers ≠ []) (stage : StageDescriptor) (cursor : UInt32) :
    ∃ recording, record writers stage cursor = (some recording,
        (if stage.reset then 0 else cursor) + UInt32.ofNat stage.presented) ∧
      Answers writers (examplesFrom (spansOf writers).length (if stage.reset then 0 else cursor) stage.presented)
        recording := by
  cases writers with
  | nil => exact absurd rfl hspans
  | cons first rest =>
    have hheld : (spansOf (first :: rest)).toArray.isEmpty = false := by simpa using hspans
    have hcursor (start : UInt32) (held : Nat) :
        (round stage start held).cursor = start + UInt32.ofNat stage.presented := by
      rw [round_eq, StageDescriptor.presented, UInt32.ofNat_mul, UInt32.ofNat_toNat, UInt32.ofNat_toNat]
    unfold record
    dsimp only
    rw [← spansOf, hheld, if_neg Bool.false_ne_true, hcursor, List.size_toArray]
    refine ⟨_, rfl, ?_, ?_⟩
    · dsimp only
      rw [List.map_map, List.map_flatMap, ← map_presentations, List.flatMap_map]
      exact List.flatMap_congr fun _ _ => map_entry_moments ..
    · refine List.map_congr_left fun w _ => ?_
      congr 1
      rw [List.flatMap_assoc, ← map_presentations, List.flatMap_map]
      exact List.flatMap_congr fun _ _ => flatMap_tick_moments ..

/-- What is recorded at the presentations of a list is joined from the parts of the list. -/
theorem flatMap_flatten_of_forall₂ {α β γ : Type} {R : List α → β → Prop} {f : β → List γ} {g : α → List γ}
    (hR : ∀ {items part}, R items part → f part = items.flatMap g) {lists : List (List α)} {parts : List β}
    (h : List.Forall₂ R lists parts) : lists.flatten.flatMap g = parts.flatMap f := by
  induction h with
  | nil => rfl
  | cons hfirst _ ih => rw [List.flatten_cons, List.flatMap_append, ih, List.flatMap_cons, hR hfirst]

namespace Answers

variable {examples : List Nat} {recording whole : RecordedOutputs}

theorem subgroupSizes_eq (h : Answers writers examples recording) :
    recording.subgroupSizes = writers.map fun w => (w.group, w.subgroup, w.units) := by
  rw [RecordedOutputs.subgroupSizes, h.outputs_eq, List.map_map]
  rfl

theorem block_eq (h : Answers writers examples recording) (position : Nat) :
    recording.block position = examples.flatMap fun example_ => (writers[position]?.map fun w =>
      (moments (writers.any (·.lastTickOnly)) (spansOf writers).toArray 0 example_).flatMap
        fun m => w.tick m.row).getD [] := by
  rw [RecordedOutputs.block, h.outputs_eq, List.getElem?_map]
  cases writers[position]? with
  | none => simp
  | some w => rfl

theorem joinedFrom {lists : List (List Nat)} {parts : List RecordedOutputs}
    (hparts : List.Forall₂ (Answers writers) lists parts) (hwhole : Answers writers lists.flatten whole) :
    whole.JoinedFrom parts where
  entries_eq := by
    rw [hwhole.entries_eq]
    exact flatMap_flatten_of_forall₂ (fun h => h.entries_eq) hparts
  subgroups_eq := by
    intro part hpart
    obtain ⟨_, _, hanswers⟩ := Binding.exists_of_forall₂ hparts.flip hpart
    rw [hanswers.subgroupSizes_eq, hwhole.subgroupSizes_eq]
  block_eq := by
    intro position
    rw [hwhole.block_eq]
    exact flatMap_flatten_of_forall₂ (fun h => h.block_eq position) hparts

end Answers

theorem writer?_setRegion (group : GroupId) (subgroup : Nat) (p : UnitPayload) (data : List UInt8) :
    (writer? group subgroup (p.setRegion .stage data)).map (Option.map Writer.bare) =
      (writer? group subgroup p).map (Option.map Writer.bare) := by
  have hcore := p.region?_setRegion_of_ne (show Region.core ≠ .stage by decide) data
  have htargets := p.region?_setRegion_of_ne (show Region.targets ≠ .stage by decide) data
  have hexamples := p.region?_setRegion_of_ne (show Region.examples ≠ .stage by decide) data
  unfold writer?
  rw [hcore, htargets]
  cases p.region? .core with
  | none => rfl
  | some core =>
    cases hread : OutputFlags.read core with
    | error cause => simp only [hread]; rfl
    | ok flags =>
      simp only [hread, Except.map]
      split
      · simp only [Option.map_some, Writer.bare, hexamples]
        rfl
      · rfl

end Echo

/-- A filter of results, and then a view of what it finds. -/
theorem map_filterMapM {ε α β γ : Type} (f : α → Except ε (Option β)) (view : β → γ) (items : List α) :
    (items.filterMapM f).map (List.map view) = items.filterMapM fun item => (f item).map (Option.map view) := by
  induction items with
  | nil => rfl
  | cons item rest ih =>
    rw [List.filterMapM_cons, List.filterMapM_cons, ← ih]
    cases f item with
    | error cause => rfl
    | ok found =>
      cases found with
      | none => rfl
      | some value => cases rest.filterMapM f <;> rfl

namespace Loopback

variable {s later : Loopback} {region : Region} {data : List UInt8} {p : UnitPayload}

theorem payload?_of_mem (hunits : (s.payloads.map (·.unit)).Nodup) (hp : p ∈ s.payloads) :
    s.payload? p.unit = some p := by
  unfold payload?
  cases hfind : s.payloads.find? (·.unit == p.unit) with
  | none => exact absurd (beq_self_eq_true p.unit) (List.find?_eq_none.1 hfind p hp)
  | some found =>
    have hsame : found.unit = p.unit := by simpa using List.find?_some hfind
    rw [List.inj_on_of_nodup_map hunits (List.mem_of_find?_eq_some hfind) hp hsame]

/-- A payload takes the place of the one for the same unit. -/
theorem putPayload_split {before after : List UnitPayload} {new : UnitPayload}
    (hunits : ((before ++ p :: after).map (·.unit)).Nodup) (hnew : new.unit = p.unit) :
    putPayload (before ++ p :: after) new = before ++ new :: after := by
  have hheld : (before ++ p :: after).any (·.unit == new.unit) = true := by
    rw [List.any_eq_true]
    exact ⟨p, List.mem_append_right _ List.mem_cons_self, by rw [hnew]; exact beq_self_eq_true _⟩
  have hothers {others : List UnitPayload} (h : ∀ other ∈ others, other ∈ before ++ after) :
      others.map (fun other => if other.unit = new.unit then new else other) = others := by
    refine (List.map_congr_left (g := id) fun other hmem => if_neg fun hsame => ?_).trans (List.map_id _)
    rw [List.map_append, List.map_cons, List.nodup_middle, List.nodup_cons, ← List.map_append] at hunits
    exact hunits.1 (hnew ▸ hsame ▸ List.mem_map_of_mem (h other hmem))
  unfold putPayload
  rw [if_pos hheld, List.map_append, List.map_cons, if_pos hnew.symm,
    hothers fun _ hmem => List.mem_append_left _ hmem, hothers fun _ hmem => List.mem_append_right _ hmem]

/-- The service with a region written to all units. -/
def withRegion (s : Loopback) (region : Region) (data : List UInt8) (updates : Array RegionUpdate) : Loopback :=
  { s with payloads := s.payloads.map (·.setRegion region data), updates }

/-- A region is written to one unit after another, of those that have not been reached yet. -/
theorem forM_updateRegion_rest (written : List UnitPayload) {rest : List UnitPayload} (hrunning : s.stopped = false)
    (hpayloads : s.payloads = written ++ rest) (hunits : (s.payloads.map (·.unit)).Nodup)
    (hregion : ∀ p ∈ rest, p.hasRegion region = true) (data : List UInt8) :
    ∃ updates, (rest.forM fun p => updateRegion p.unit region data) s = .ok () { s with
      payloads := written ++ rest.map (·.setRegion region data), updates } := by
  induction rest generalizing s written with
  | nil =>
    refine ⟨s.updates, ?_⟩
    rw [List.map_nil, ← hpayloads]
    rfl
  | cons p rest ih =>
    have hmem : p ∈ s.payloads := hpayloads ▸ List.mem_append_right _ List.mem_cons_self
    have hupdate := updateRegion_ok hrunning (payload?_of_mem hunits hmem) (hregion p List.mem_cons_self) data
    have hput : putPayload s.payloads (p.setRegion region data) = written ++ p.setRegion region data :: rest := by
      rw [hpayloads] at hunits ⊢
      exact putPayload_split hunits rfl
    have hsame : (written ++ p.setRegion region data :: rest).map (·.unit) = s.payloads.map (·.unit) := by
      rw [hpayloads, List.map_append, List.map_append]
      rfl
    rw [hput] at hupdate
    obtain ⟨updates, hrest⟩ := ih (written ++ [p.setRegion region data]) (s := { s with
        payloads := written ++ p.setRegion region data :: rest
        updates := s.updates.push ⟨p.unit, region, data.length⟩ })
      hrunning (by simp) (hsame ▸ hunits)
      (fun other hother => hregion other (List.mem_cons_of_mem _ hother))
    refine ⟨updates, ?_⟩
    show (updateRegion p.unit region data >>= fun _ => rest.forM fun p => updateRegion p.unit region data) s = _
    rw [Step.bind_ok hupdate, hrest, List.append_assoc, List.singleton_append, List.map_cons]

theorem forM_updateRegion (hrunning : s.stopped = false) (hunits : (s.payloads.map (·.unit)).Nodup)
    (hregion : ∀ p ∈ s.payloads, p.hasRegion region = true) (data : List UInt8) :
    ∃ updates, (s.payloads.forM fun p => updateRegion p.unit region data) s =
      .ok () (s.withRegion region data updates) :=
  forM_updateRegion_rest [] hrunning rfl hunits hregion data

/-- Another Stage region changes nothing that recording depends on. -/
theorem writers_withRegion {found : List Echo.Writer} (h : s.writers = .ok found) (data : List UInt8)
    (updates : Array RegionUpdate) : ∃ found', (s.withRegion .stage data updates).writers = .ok found' ∧
      found'.map Echo.Writer.bare = found.map Echo.Writer.bare := by
  have hunit (u : MeshUnit) : ((s.withRegion .stage data updates).writerOf? u).map (Option.map Echo.Writer.bare) =
      (s.writerOf? u).map (Option.map Echo.Writer.bare) := by
    have hpayload : (s.withRegion .stage data updates).payload? u.id =
        (s.payload? u.id).map (·.setRegion .stage data) := List.find?_map ..
    unfold writerOf?
    rw [hpayload]
    cases s.payload? u.id with
    | none => rfl
    | some p => exact Echo.writer?_setRegion u.group u.subgroup p data
  have hviewed : (s.withRegion .stage data updates).writers.map (List.map Echo.Writer.bare) =
      s.writers.map (List.map Echo.Writer.bare) := by
    rw [writers_eq, writers_eq, map_filterMapM, map_filterMapM]
    exact congrArg (fun f => s.thresholds.filterMapM f) (funext hunit)
  rw [h] at hviewed
  obtain ⟨found', hfound, hbare⟩ := map_eq_ok hviewed
  exact ⟨found', hfound, hbare.symm⟩

/-- Writes a stage to all units and runs it. -/
def conduct (stage : StageDescriptor) : Step Loopback StageReport := do
  (← get).payloads.forM fun p => updateRegion p.unit .stage stage.bytes
  run stage

/-- The service is loaded with units that take stages, and recording depends on the given writers. -/
structure Holds (s : Loopback) (writers : List Echo.Writer) : Prop where
  running : s.stopped = false
  loaded : s.payloads ≠ []
  units : (s.payloads.map (·.unit)).Nodup
  staged : ∀ p ∈ s.payloads, p.hasRegion .stage = true
  writers_eq : ∃ found, s.writers = .ok found ∧ found.map Echo.Writer.bare = writers

variable {writers : List Echo.Writer}

/-- A stage is run to its end and leaves the service loaded as it was. -/
theorem Holds.conduct_ok (h : s.Holds writers) (stage : StageDescriptor) :
    ∃ report later, conduct stage s = .ok report later ∧ later.Holds writers ∧
      Echo.record writers stage s.cursor = (report.outputs, later.cursor) := by
  obtain ⟨found, hfound, hbare⟩ := h.writers_eq
  obtain ⟨updates, hupdates⟩ := forM_updateRegion h.running h.units h.staged stage.bytes
  obtain ⟨found', hfound', hbare'⟩ := writers_withRegion hfound stage.bytes updates
  have hheld : ∀ p ∈ (s.withRegion .stage stage.bytes updates).payloads, p.region? .stage = some stage.bytes := by
    intro p hp
    obtain ⟨old, _, rfl⟩ := List.mem_map.1 hp
    exact old.region?_setRegion .stage stage.bytes
  have hloaded : (s.withRegion .stage stage.bytes updates).payloads ≠ [] := List.map_eq_nil_iff.not.2 h.loaded
  obtain ⟨report, later, hrun, hkeeps, -, found'', hfound'', hrecord⟩ :=
    run_ok (s := s.withRegion .stage stage.bytes updates) h.running stage hloaded hheld hfound'
  cases hfound'.symm.trans hfound''
  refine ⟨report, later, ?_, ?_, ?_⟩
  · unfold conduct
    rw [Step.bind_ok (x := get) rfl, Step.bind_ok hupdates, hrun]
  · refine ⟨hkeeps.stopped_eq.trans h.running, ?_, ?_, ?_, found', hkeeps.writers_eq.trans hfound', ?_⟩
    · rw [hkeeps.payloads_eq]
      exact hloaded
    · rw [hkeeps.payloads_eq]
      show ((s.payloads.map _).map _).Nodup
      rw [List.map_map]
      exact h.units
    · intro p hp
      rw [UnitPayload.hasRegion, hheld p (hkeeps.payloads_eq ▸ hp)]
      rfl
    · exact hbare'.trans hbare
  · rw [← hrecord, ← hbare, ← hbare', Echo.record_bare]
    rfl

/-- The examples that a stage presents, of those in the unit that answers first. -/
def presented (s : Loopback) (stage : StageDescriptor) : List Nat :=
  match s.writers with
  | .ok found =>
    (Echo.presentations stage (if stage.reset then 0 else s.cursor) (Echo.spansOf found).length).map (·.2)
  | .error _ => []

/-- The examples that stages present which are run one after another. -/
def presentedEach (s : Loopback) : List StageDescriptor → List (List Nat)
  | [] => []
  | stage :: rest => s.presented stage :: (Step.after (conduct stage) s).presentedEach rest

/-- Stages in parts and a stage that presents as much lead to the same recording, with the same
examples, and to the same cursor. -/
structure Alike (s : Loopback) (whole : StageDescriptor) (parts : List StageDescriptor) : Prop where
  presented_eq : s.presented whole = (s.presentedEach parts).flatten
  recorded : ∃ reports after report afterWhole recordings recording,
    parts.mapM conduct s = .ok reports after ∧ conduct whole s = .ok report afterWhole ∧
    reports.map (·.outputs) = recordings.map some ∧ report.outputs = some recording ∧
    recording.JoinedFrom recordings ∧ (parts ≠ [] → after.cursor = afterWhole.cursor)

namespace Holds

theorem presented_eq (h : s.Holds writers) (stage : StageDescriptor) : s.presented stage =
    Echo.examplesFrom (Echo.spansOf writers).length (if stage.reset then 0 else s.cursor) stage.presented := by
  obtain ⟨found, hfound, rfl⟩ := h.writers_eq
  unfold presented
  rw [hfound]
  dsimp only
  rw [Echo.map_presentations, Echo.spansOf_bare]

/-- A stage moves the cursor by its presentations and records the examples that it presents. -/
theorem conduct_records (h : s.Holds writers) (hspans : Echo.spansOf writers ≠ []) (stage : StageDescriptor) :
    ∃ report later recording, conduct stage s = .ok report later ∧ later.Holds writers ∧
      report.outputs = some recording ∧ Echo.Answers writers (s.presented stage) recording ∧
      later.cursor = (if stage.reset then 0 else s.cursor) + UInt32.ofNat stage.presented := by
  obtain ⟨report, later, hconduct, hlater, hrecord⟩ := h.conduct_ok stage
  obtain ⟨recording, hrecorded, hanswers⟩ := Echo.record_answers hspans stage s.cursor
  obtain ⟨houtputs, hcursor⟩ := Prod.mk.inj (hrecord.symm.trans hrecorded)
  rw [← h.presented_eq] at hanswers
  exact ⟨report, later, recording, hconduct, hlater, houtputs, hanswers, hcursor⟩

/-- Stages run one after another, each from where the one before it stopped. -/
theorem mapM_conduct (h : s.Holds writers) (hspans : Echo.spansOf writers ≠ []) (parts : List StageDescriptor) :
    ∃ reports later recordings, parts.mapM conduct s = .ok reports later ∧ later.Holds writers ∧
      reports.map (·.outputs) = recordings.map some ∧
      List.Forall₂ (Echo.Answers writers) (s.presentedEach parts) recordings ∧
      ((∀ part ∈ parts, part.reset = false) →
        later.cursor = s.cursor + UInt32.ofNat (parts.map StageDescriptor.presented).sum ∧
        (s.presentedEach parts).flatten = Echo.examplesFrom (Echo.spansOf writers).length s.cursor
          (parts.map StageDescriptor.presented).sum) := by
  induction parts generalizing s with
  | nil => exact ⟨[], s, [], rfl, h, rfl, .nil, fun _ => ⟨(UInt32.add_zero _).symm, rfl⟩⟩
  | cons part rest ih =>
    obtain ⟨report, middle, recording, hconduct, hmiddle, houtputs, hanswers, hcursor⟩ :=
      h.conduct_records hspans part
    obtain ⟨reports, later, recordings, hmapM, hlater, hrecordings, hparts, hgoes⟩ := ih hmiddle
    have hmapM : (part :: rest).mapM conduct s = .ok (report :: reports) later := by
      rw [List.mapM_cons, Step.bind_ok hconduct, Step.bind_ok hmapM]
      rfl
    refine ⟨report :: reports, later, recording :: recordings, hmapM, hlater, ?_, ?_, ?_⟩
    · rw [List.map_cons, List.map_cons, houtputs, hrecordings]
    · rw [presentedEach, Step.after_ok hconduct]
      exact .cons hanswers hparts
    · intro hreset
      obtain ⟨hcursorRest, hpresentedRest⟩ := hgoes fun other hother => hreset other (List.mem_cons_of_mem _ hother)
      rw [hreset part List.mem_cons_self, if_neg Bool.false_ne_true] at hcursor
      rw [hcursor] at hcursorRest hpresentedRest
      constructor
      · rw [hcursorRest, List.map_cons, List.sum_cons, UInt32.ofNat_add, UInt32.add_assoc]
      · rw [presentedEach, Step.after_ok hconduct, List.flatten_cons, hpresentedRest, h.presented_eq,
          hreset part List.mem_cons_self, if_neg Bool.false_ne_true, List.map_cons, List.sum_cons,
          Echo.examplesFrom_add]

/-- Parts of which only the first may start again do what one stage does with all their presentations. -/
theorem alike (h : s.Holds writers) (hspans : Echo.spansOf writers ≠ []) {whole : StageDescriptor}
    {parts : List StageDescriptor} (htotal : whole.presented = (parts.map StageDescriptor.presented).sum)
    (hreset : ∀ first rest, parts = first :: rest → first.reset = whole.reset ∧ ∀ part ∈ rest, part.reset = false) :
    s.Alike whole parts := by
  obtain ⟨report, later, recording, hconduct, -, houtputs, hanswers, hcursor⟩ := h.conduct_records hspans whole
  obtain ⟨reports, after, recordings, hmapM, -, hrecordings, hparts, -⟩ := h.mapM_conduct hspans parts
  have hjoined : s.presented whole = (s.presentedEach parts).flatten ∧ (parts ≠ [] → after.cursor = later.cursor) := by
    cases parts with
    | nil =>
      rw [h.presented_eq, htotal]
      exact ⟨rfl, fun hne => absurd rfl hne⟩
    | cons first rest =>
      obtain ⟨hfirst, hrest⟩ := hreset first rest rfl
      obtain ⟨_, middle, _, hconductFirst, hmiddle, -, -, hcursorFirst⟩ := h.conduct_records hspans first
      obtain ⟨_, last, _, hmapMRest, -, -, -, hgoes⟩ := hmiddle.mapM_conduct hspans rest
      obtain ⟨hcursorRest, hpresentedRest⟩ := hgoes hrest
      rw [hcursorFirst, hfirst] at hcursorRest hpresentedRest
      have hlast : after = last := by
        rw [List.mapM_cons, Step.bind_ok hconductFirst, Step.bind_ok hmapMRest] at hmapM
        cases hmapM
        rfl
      rw [List.map_cons, List.sum_cons] at htotal
      constructor
      · rw [presentedEach, Step.after_ok hconductFirst, List.flatten_cons, hpresentedRest, h.presented_eq,
          h.presented_eq, hfirst, htotal, Echo.examplesFrom_add]
      · intro _
        rw [hlast, hcursorRest, hcursor, htotal, UInt32.ofNat_add, UInt32.add_assoc]
  refine ⟨hjoined.1, reports, after, report, later, recordings, recording, hmapM, hconduct, hrecordings, houtputs, ?_,
    hjoined.2⟩
  rw [hjoined.1] at hanswers
  exact Echo.Answers.joinedFrom hparts hanswers

end Holds

section Units

/-- No two payloads are for one unit. -/
def Distinct (s : Loopback) : Prop := (s.payloads.map (·.unit)).Nodup

theorem distinct_putPayload {payloads : List UnitPayload} (h : (payloads.map (·.unit)).Nodup) (p : UnitPayload) :
    ((putPayload payloads p).map (·.unit)).Nodup := by
  unfold putPayload
  split
  case isTrue =>
    have hsame : (payloads.map fun other => if other.unit = p.unit then p else other).map (·.unit) =
        payloads.map (·.unit) := by
      rw [List.map_map]
      refine List.map_congr_left fun other _ => ?_
      rw [Function.comp_apply]
      split
      · exact (‹other.unit = p.unit›).symm
      · rfl
    rwa [hsame]
  case isFalse hnew =>
    rw [List.map_append, List.map_singleton, List.nodup_append]
    refine ⟨h, List.nodup_singleton _, ?_⟩
    rintro unit hunit _ hsame rfl
    obtain ⟨other, hother, hunit⟩ := List.mem_map.1 hunit
    rw [List.mem_singleton.1 hsame] at hunit
    exact hnew (List.any_eq_true.2 ⟨other, hother, beq_iff_eq.2 hunit⟩)

theorem distinct_foldl_putPayload (held : List UnitPayload) (h : (held.map (·.unit)).Nodup)
    (payloads : List UnitPayload) : ((payloads.foldl putPayload held).map (·.unit)).Nodup := by
  induction payloads generalizing held with
  | nil => exact h
  | cons p rest ih => exact ih _ (distinct_putPayload h p)

/-- What a call does to the payloads, granted or not. -/
theorem keeps_distinct (call : LoopbackCall) : Step.Keeps Distinct call.make := by
  cases call with
  | place g =>
    refine Step.Keeps.map ?_ _
    refine (keeps_checkRunning _).bind fun _ => Step.keeps_get.bind fun s => (Step.keeps_ofResult _).bind fun keys => ?_
    refine Step.Keeps.bind (Step.keeps_modify ?_) fun _ => Step.keeps_pure _
    intro _ h
    exact h
  | load payloads =>
    refine (keeps_checkRunning _).bind fun _ => Step.keeps_get.bind fun s => ?_
    exact Step.keeps_ite (Step.keeps_throw_bind _ _)
      (Step.keeps_modify fun _ _ => distinct_foldl_putPayload [] List.nodup_nil payloads)
  | updateRegion unit region data =>
    refine (keeps_checkRunning _).bind fun _ => Step.keeps_get.bind fun s => ?_
    cases s.payload? unit with
    | none => exact Step.keeps_throw _
    | some p => exact Step.keeps_ite (Step.keeps_throw_bind _ _) (Step.keeps_modify fun _ h => distinct_putPayload h _)
  | run stage => exact (keeps_run (fun _ _ _ _ _ h => h) stage).map _
  | stop => exact Step.keeps_modify fun _ h => h
  | pushTestResults results => exact Step.keeps_modify fun _ h => h

theorem distinct_play {s : Loopback} (h : s.Distinct) (calls : List LoopbackCall) : (s.play calls).Distinct := by
  induction calls generalizing s with
  | nil => exact h
  | cons call rest ih => exact ih (keeps_distinct call s h)

end Units

/-- A running service with loaded units that take stages, of which some record and have examples. -/
structure RecordsOutputs (s : Loopback) : Prop where
  running : s.stopped = false
  staged : ∀ p ∈ s.payloads, p.hasRegion .stage = true
  writers : ∃ found, s.writers = .ok found ∧ Echo.spansOf found ≠ []

theorem writers_of_payloads_nil (h : s.payloads = []) : s.writers = .ok [] := by
  have hunit (u : MeshUnit) : s.writerOf? u = .ok none := by
    unfold writerOf? payload?
    rw [h]
    rfl
  rw [writers_eq]
  induction s.thresholds with
  | nil => rfl
  | cons u rest ih =>
    rw [List.filterMapM_cons, hunit, ← ih]
    rfl

theorem RecordsOutputs.loaded (h : s.RecordsOutputs) : s.payloads ≠ [] := by
  intro hnone
  obtain ⟨found, hfound, hspans⟩ := h.writers
  cases (writers_of_payloads_nil hnone).symm.trans hfound
  exact hspans rfl

/-- Stages can be split. Wherever the service stands, two stages of one epoch, of which the second
does not start again, do what one stage with the examples of both does: together they record the
same events and the same outputs of every subgroup, and the cursor ends at the same place. A stage
of many epochs does in the same way what as many stages of one epoch do. -/
theorem splitting_spec (keySpace : Nat) (calls : List LoopbackCall)
    (h : (play { keySpace } calls).RecordsOutputs) :
    (∀ first second whole : StageDescriptor, first.epochs = 1 → second.epochs = 1 → whole.epochs = 1 →
      whole.examples.toNat = first.examples.toNat + second.examples.toNat →
      first.reset = whole.reset → second.reset = false →
      (play { keySpace } calls).Alike whole [first, second]) ∧
    ∀ (whole : StageDescriptor) (parts : List StageDescriptor), parts.length = whole.epochs.toNat →
      (∀ part ∈ parts, part.epochs = 1 ∧ part.examples = whole.examples) →
      (∀ first rest, parts = first :: rest → first.reset = whole.reset ∧ ∀ part ∈ rest, part.reset = false) →
      (play { keySpace } calls).Alike whole parts := by
  obtain ⟨found, hfound, hspans⟩ := h.writers
  have hdistinct : (play { keySpace } calls).Distinct := distinct_play (s := { keySpace }) List.nodup_nil calls
  have hholds : (play { keySpace } calls).Holds (found.map Echo.Writer.bare) :=
    ⟨h.running, h.loaded, hdistinct, h.staged, found, hfound, rfl⟩
  have hbare : Echo.spansOf (found.map Echo.Writer.bare) ≠ [] := by rwa [Echo.spansOf_bare]
  have hone (part : StageDescriptor) (hepochs : part.epochs = 1) : part.presented = part.examples.toNat := by
    rw [StageDescriptor.presented, hepochs]
    exact Nat.one_mul _
  constructor
  · intro first second whole hfirst hsecond hwhole htotal hreset hcontinues
    refine hholds.alike hbare ?_ ?_
    · rw [hone whole hwhole, htotal, ← hone first hfirst, ← hone second hsecond]
      rfl
    · rintro _ _ ⟨⟩
      exact ⟨hreset, fun part hpart => List.mem_singleton.1 hpart ▸ hcontinues⟩
  · intro whole parts hlength hparts hreset
    refine hholds.alike hbare ?_ hreset
    have htotal : parts.map StageDescriptor.presented = List.replicate parts.length whole.examples.toNat := by
      rw [List.eq_replicate_iff]
      refine ⟨List.length_map _, fun count hcount => ?_⟩
      obtain ⟨part, hpart, rfl⟩ := List.mem_map.1 hcount
      obtain ⟨hepochs, hexamples⟩ := hparts part hpart
      rw [hone part hepochs, hexamples]
    rw [htotal, List.sum_replicate_nat, hlength, StageDescriptor.presented]

section Example

/-- One Threshold unit that records is placed and loaded, with two events of its first example and
one event of its second, and the cursor is moved on to the second. -/
def echoing : List LoopbackCall :=
  [.place { units := #[{ id := .threshold 1 0, role := .threshold, group := 1, subgroup := 0, units := 1 }] },
    .load [⟨.threshold 1 0, .threshold, [(.core, [1, 0, 0, 0, 1, 0, 0, 0, 0, 0, 0, 0, 0, 1, 0]),
      (.stage, oneTest.bytes),
      (.examples, [0, 0, 0, 0, 2, 0, 0, 0, 0, 0, 0, 0, 0, 0, 0, 0, 1, 0, 0, 0, 1, 0, 0, 0, 2, 0, 0, 0, 0, 0, 0, 0]),
      (.targets, [0, 0, 0, 8, 0, 0, 0, 4, 0, 0, 0, 2])]⟩],
    .run oneTest]

/-- Stages of two and of three examples go on from the second example. -/
theorem splitting_spec_five : (play { keySpace := 1 } echoing).RecordsOutputs ∧
    (play { keySpace := 1 } echoing).cursor = 1 ∧
    (play { keySpace := 1 } echoing).Alike { oneTest with reset := false, examples := 5 }
      [{ oneTest with reset := false, examples := 2 }, { oneTest with reset := false, examples := 3 }] := by
  have h : (play { keySpace := 1 } echoing).RecordsOutputs :=
    ⟨rfl, by decide +kernel, _, rfl, by decide +kernel⟩
  exact ⟨h, rfl, (splitting_spec 1 echoing h).1 _ _ _ rfl rfl rfl rfl rfl rfl⟩

end Example

end Loopback

end PerceptronMesh

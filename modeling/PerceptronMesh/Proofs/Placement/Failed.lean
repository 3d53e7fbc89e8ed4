import PerceptronMesh.Proofs.Placement.Books
import PerceptronMesh.Proofs.Placement.Writers

/-!
Calls of the loopback that fail. A call looks for its faults before it changes anything, so a failed
one can be left out of a history. The exception is a run that comes upon a Core region too short to
be read: by then its stage is entered into the books.
-/

namespace PerceptronMesh

open Numeric

namespace Echo

theorem OutputFlags.width_le_of_read {core : List UInt8} {flags : OutputFlags} (h : read core = .ok flags) :
    width ≤ core.length := by
  obtain ⟨⟨_, _⟩, houtput, h⟩ := bind_eq_ok_iff.1 h
  obtain ⟨_, hpad, h⟩ := bind_eq_ok_iff.1 h
  obtain ⟨⟨_, _⟩, hunits, h⟩ := bind_eq_ok_iff.1 h
  obtain ⟨_, hskip, h⟩ := bind_eq_ok_iff.1 h
  obtain ⟨⟨_, _⟩, hwrite, h⟩ := bind_eq_ok_iff.1 h
  obtain ⟨⟨_, last⟩, hlast, _⟩ := bind_eq_ok_iff.1 h
  have := Wire.Reader.length_of_u8 houtput
  have := Wire.Reader.length_of_skip hpad
  have := Wire.Reader.length_of_u32 hunits
  have := Wire.Reader.length_of_skip hskip
  have := Wire.Reader.length_of_u8 hwrite
  have := Wire.Reader.length_of_u8 hlast
  have hcore : (Wire.Reader.ofBytes core).rest.length = core.length := rfl
  unfold width
  omega

/-- A unit has a Core region that is too short to be read. -/
def HasShortCore (payload : UnitPayload) : Prop := ∃ core ∈ payload.region? .core, core.length < OutputFlags.width

theorem writer?_eq_error_iff {group : GroupId} {subgroup : Nat} {payload : UnitPayload} :
    (∃ cause, writer? group subgroup payload = .error cause) ↔ HasShortCore payload := by
  unfold writer? HasShortCore
  cases payload.region? .core with
  | none => simp
  | some core =>
    simp only [Option.mem_def, Option.some.injEq, exists_eq_left']
    constructor
    · rintro ⟨cause, h⟩
      by_contra hlong
      obtain ⟨flags, hflags⟩ := OutputFlags.exists_read (Nat.not_lt.1 hlong)
      rw [hflags] at h
      cases h
    · intro hshort
      cases hread : OutputFlags.read core with
      | error cause => exact ⟨cause, rfl⟩
      | ok flags => exact absurd (OutputFlags.width_le_of_read hread) (Nat.not_le.2 hshort)

end Echo

/-- A filter of results fails if one of them does. -/
theorem filterMapM_eq_error_iff {ε α β : Type} {f : α → Except ε (Option β)} {items : List α} :
    (∃ cause, items.filterMapM f = .error cause) ↔ ∃ item ∈ items, ∃ cause, f item = .error cause := by
  induction items with
  | nil => simp [List.filterMapM_nil, pure, Except.pure]
  | cons item rest ih =>
    rw [List.filterMapM_cons, List.exists_mem_cons_iff, ← ih]
    cases f item with
    | error cause => exact iff_of_true ⟨cause, rfl⟩ (.inl ⟨cause, rfl⟩)
    | ok found =>
      cases found with
      | none => simp [bind, Except.bind]
      | some value =>
        cases rest.filterMapM f <;> simp [bind, Except.bind, pure, Except.pure]

/-- The calls that a loopback takes. -/
inductive LoopbackCall where
  | place (g : Graph)
  | load (payloads : List UnitPayload)
  | updateRegion (unit : UnitId) (region : Region) (data : List UInt8)
  | run (stage : StageDescriptor)
  | stop
  | pushTestResults (results : TestResults)

namespace LoopbackCall

/-- The call of a service that this is, as far as it needs the service to be running. -/
def running? : LoopbackCall → Option ServiceCall
  | .place _ => some .place
  | .load _ => some .load
  | .updateRegion _ _ _ => some .updateRegion
  | .run _ => some .run
  | .stop => none
  | .pushTestResults _ => none

/-- Makes the call, whose answer does not matter here. -/
def make : LoopbackCall → Step Loopback Unit
  | .place g => (fun _ => ()) <$> Loopback.place g
  | .load payloads => Loopback.load payloads
  | .updateRegion unit region data => Loopback.updateRegion unit region data
  | .run stage => (fun _ => ()) <$> Loopback.run stage
  | .stop => Loopback.stop
  | .pushTestResults results => modify fun s => s.pushTestResults results

end LoopbackCall

namespace Loopback

variable {s : Loopback}

/-- What a call is refused for. -/
inductive Refuses (s : Loopback) : LoopbackCall → Error → Prop
  | stopped {call : LoopbackCall} {needed : ServiceCall} (hstopped : s.stopped = true)
      (hcall : call.running? = some needed) : Refuses s call (.placement (.stopped needed))
  | keysExhausted {g : Graph} {name : String} (hexceeds : maxWord32 < g.partitions.length * s.keySpace) :
      Refuses s (.place g) (.placement (.keysExhausted name))
  | loadBeforePlace {payloads : List UnitPayload} (hrouting : s.routing = none) :
      Refuses s (.load payloads) (.placement .loadBeforePlace)
  | notLoaded {unit : UnitId} {region : Region} {data : List UInt8} (hpayload : s.payload? unit = none) :
      Refuses s (.updateRegion unit region data) (.placement (.notLoaded unit))
  | noRegion {unit : UnitId} {region : Region} {data : List UInt8} {p : UnitPayload}
      (hpayload : s.payload? unit = some p) (hregion : p.region? region = none) :
      Refuses s (.updateRegion unit region data) (.placement (.noRegion unit region))
  | runBeforeLoad {stage : StageDescriptor} (hnone : s.payloads = []) :
      Refuses s (.run stage) (.placement .runBeforeLoad)
  | staleStage {stage : StageDescriptor} {p : UnitPayload} (hp : p ∈ s.payloads)
      (hstale : p.region? .stage ≠ some stage.bytes) : Refuses s (.run stage) (.placement (.staleStage p.unit))

/-- The service can start a stage: it is running, and its units all hold the stage. -/
structure Staged (s : Loopback) (stage : StageDescriptor) : Prop where
  running : s.stopped = false
  loaded : s.payloads ≠ []
  held : ∀ p ∈ s.payloads, p.region? .stage = some stage.bytes

/-- A stage can be started, but the Core region of a placed Threshold unit is too short to be
read. -/
structure Misreads (s : Loopback) (stage : StageDescriptor) : Prop where
  staged : s.Staged stage
  short : ∃ u ∈ s.thresholds, ∃ p ∈ s.payload? u.id, Echo.HasShortCore p

/-- The service with a stage that it has begun: in the log, with the epochs of a training counted
and the queued results of a test taken, but without a recording. -/
def entered (s : Loopback) (stage : StageDescriptor) : Loopback :=
  match stage.mode with
  | .train => { s with runs := s.runs.push stage, epochsTrained := s.epochsTrained + stage.epochs }
  | .test => { s with runs := s.runs.push stage, queued := s.queued.tail }

theorem checkRunning_error (h : s.stopped = true) (call : ServiceCall) :
    checkRunning call s = .error (.placement (.stopped call)) s := by
  unfold checkRunning
  rw [Step.bind_ok (x := get) rfl, h]
  rfl

theorem writers_eq_error_iff : (∃ cause, s.writers = .error cause) ↔
    ∃ u ∈ s.thresholds, ∃ p ∈ s.payload? u.id, Echo.HasShortCore p := by
  have hunit (u : MeshUnit) : (∃ cause, s.writerOf? u = .error cause) ↔
      ∃ p ∈ s.payload? u.id, Echo.HasShortCore p := by
    unfold writerOf?
    cases s.payload? u.id with
    | none => simp [pure, Except.pure]
    | some payload => simpa using Echo.writer?_eq_error_iff
  simp only [← hunit, writers_eq]
  exact filterMapM_eq_error_iff

theorem nextTestResults_eq (stage : StageDescriptor) : nextTestResults stage s =
    .ok (s.queued.headD { epochsTrained := s.epochsTrained, examplesTested := stage.examples })
      { s with queued := s.queued.tail } := by
  unfold nextTestResults
  rw [Step.bind_ok (x := get) rfl]
  obtain ⟨_, _, _, _, _, _, _, queued, _, _, _⟩ := s
  cases queued <;> rfl

theorem staleUnit?_eq_none_iff {stage : StageDescriptor} :
    s.staleUnit? stage = none ↔ ∀ p ∈ s.payloads, p.region? .stage = some stage.bytes := by
  unfold staleUnit?
  rw [Option.map_eq_none_iff, List.find?_eq_none]
  simp

theorem recordOutputs_cases (s : Loopback) (stage : StageDescriptor) :
    (∃ outputs later, recordOutputs stage s = .ok outputs later) ∨
      ∃ cause, s.writers = .error cause ∧ recordOutputs stage s = .error (.wire cause) s := by
  unfold recordOutputs
  rw [Step.bind_ok (x := get) rfl]
  match hwriters : s.writers with
  | .ok writers => exact .inl ⟨_, _, rfl⟩
  | .error cause => exact .inr ⟨cause, rfl, rfl⟩

theorem writers_entered (s : Loopback) (stage : StageDescriptor) : (s.entered stage).writers = s.writers := by
  unfold entered
  cases stage.mode <;> rfl

/-- A stage that can be started is entered before its outputs are recorded. -/
theorem Staged.run_eq {stage : StageDescriptor} (h : s.Staged stage) : ∃ results : Option TestResults,
    run stage s = (recordOutputs stage >>= fun outputs =>
      pure ({ stageId := stage.id, mode := stage.mode, testResults := results, outputs } : StageReport))
        (s.entered stage) := by
  have hloaded : s.payloads.isEmpty = false := List.isEmpty_eq_false_iff.2 h.loaded
  unfold run
  rw [Step.bind_ok (checkRunning_ok h.running .run), Step.bind_ok (x := get) rfl, hloaded,
    staleUnit?_eq_none_iff.2 h.held]
  obtain ⟨id, mode, updateFunction, reset, examples, epochs⟩ := stage
  cases mode with
  | train => exact ⟨none, rfl⟩
  | test =>
    exact ⟨_, Step.bind_ok (Step.map_ok (nextTestResults_eq (s := { s with runs := s.runs.push _ }) _))⟩

section Running

variable (hrunning : s.stopped = false)
include hrunning

theorem load_cases (payloads : List UnitPayload) :
    (∃ later, load payloads s = .ok () later) ∨
      s.routing = none ∧ load payloads s = .error (.placement .loadBeforePlace) s := by
  unfold load
  rw [Step.bind_ok (checkRunning_ok hrunning .load), Step.bind_ok (x := get) rfl]
  cases hnone : s.routing.isNone with
  | true => exact .inr ⟨Option.isNone_iff_eq_none.1 hnone, rfl⟩
  | false => exact .inl ⟨_, rfl⟩

theorem updateRegion_cases (unit : UnitId) (region : Region) (data : List UInt8) :
    (∃ later, updateRegion unit region data s = .ok () later) ∨
      (s.payload? unit = none ∧ updateRegion unit region data s = .error (.placement (.notLoaded unit)) s) ∨
      ∃ p, s.payload? unit = some p ∧ p.region? region = none ∧
        updateRegion unit region data s = .error (.placement (.noRegion unit region)) s := by
  cases hpayload : s.payload? unit with
  | none =>
    refine .inr (.inl ⟨rfl, ?_⟩)
    unfold updateRegion
    rw [Step.bind_ok (checkRunning_ok hrunning .updateRegion), Step.bind_ok (x := get) rfl, hpayload]
    rfl
  | some p =>
    cases hheld : p.hasRegion region with
    | true => exact .inl ⟨_, updateRegion_ok hrunning hpayload hheld data⟩
    | false =>
      refine .inr (.inr ⟨p, rfl, by simpa [UnitPayload.hasRegion] using hheld, ?_⟩)
      unfold updateRegion
      rw [Step.bind_ok (checkRunning_ok hrunning .updateRegion), Step.bind_ok (x := get) rfl, hpayload]
      simp only [hheld]
      rfl

/-- A stage is run, or refused, or entered and then not recorded. -/
theorem run_cases (stage : StageDescriptor) :
    (∃ report later, run stage s = .ok report later) ∨
      (∃ e, s.Refuses (.run stage) e ∧ run stage s = .error e s) ∨
      ∃ cause, s.Misreads stage ∧ run stage s = .error (.wire cause) (s.entered stage) := by
  have hstart : run stage s = _ := (Step.bind_ok (checkRunning_ok hrunning .run)).trans (Step.bind_ok (x := get) rfl)
  by_cases hnone : s.payloads = []
  · refine .inr (.inl ⟨_, .runBeforeLoad hnone, ?_⟩)
    rw [hstart, hnone]
    rfl
  cases hstale : s.staleUnit? stage with
  | some unit =>
    obtain ⟨p, hfound, rfl⟩ := Option.map_eq_some_iff.1 hstale
    have hother : p.region? .stage ≠ some stage.bytes := by simpa using List.find?_some hfound
    refine .inr (.inl ⟨_, .staleStage (List.mem_of_find?_eq_some hfound) hother, ?_⟩)
    rw [hstart, List.isEmpty_eq_false_iff.2 hnone, hstale]
    rfl
  | none =>
    have hstaged : s.Staged stage := ⟨hrunning, hnone, staleUnit?_eq_none_iff.1 hstale⟩
    obtain ⟨results, hrun⟩ := hstaged.run_eq
    obtain ⟨outputs, later, hrecord⟩ | ⟨cause, hwriters, hrecord⟩ := recordOutputs_cases (s.entered stage) stage
    · exact .inl ⟨_, later, hrun.trans (Step.bind_ok hrecord)⟩
    · rw [writers_entered] at hwriters
      exact .inr (.inr ⟨cause, ⟨hstaged, writers_eq_error_iff.1 ⟨cause, hwriters⟩⟩,
        hrun.trans (Step.bind_error hrecord)⟩)

end Running

/-- A call is granted, or it is refused and changes nothing, or it is a run that comes upon a
region that cannot be read. -/
theorem make_cases (s : Loopback) (call : LoopbackCall) :
    (∃ later, call.make s = .ok () later) ∨ (∃ e, s.Refuses call e ∧ call.make s = .error e s) ∨
      ∃ stage cause, call = .run stage ∧ s.Misreads stage ∧ call.make s = .error (.wire cause) (s.entered stage) := by
  cases hstopped : s.stopped with
  | true =>
    have hrefused {α : Type} {needed : ServiceCall} {rest : Unit → Step Loopback α} :
        (checkRunning needed >>= rest) s = .error (.placement (.stopped needed)) s :=
      Step.bind_error (checkRunning_error hstopped needed)
    cases call with
    | place g => exact .inr (.inl ⟨_, .stopped hstopped rfl, Step.map_error hrefused⟩)
    | load payloads => exact .inr (.inl ⟨_, .stopped hstopped rfl, hrefused⟩)
    | updateRegion unit region data => exact .inr (.inl ⟨_, .stopped hstopped rfl, hrefused⟩)
    | run stage => exact .inr (.inl ⟨_, .stopped hstopped rfl, Step.map_error hrefused⟩)
    | stop => exact .inl ⟨_, rfl⟩
    | pushTestResults results => exact .inl ⟨_, rfl⟩
  | false =>
    cases call with
    | place g =>
      obtain ⟨_, table, _, hplace⟩ | ⟨hexceeds, name, hplace⟩ := place_cases hstopped g
      · exact .inl ⟨_, Step.map_ok hplace⟩
      · exact .inr (.inl ⟨_, .keysExhausted hexceeds, Step.map_error hplace⟩)
    | load payloads =>
      obtain ⟨later, hload⟩ | ⟨hrouting, hload⟩ := load_cases hstopped payloads
      · exact .inl ⟨later, hload⟩
      · exact .inr (.inl ⟨_, .loadBeforePlace hrouting, hload⟩)
    | updateRegion unit region data =>
      obtain ⟨later, hupdate⟩ | ⟨hpayload, hupdate⟩ | ⟨p, hpayload, hregion, hupdate⟩ :=
        updateRegion_cases hstopped unit region data
      · exact .inl ⟨later, hupdate⟩
      · exact .inr (.inl ⟨_, .notLoaded hpayload, hupdate⟩)
      · exact .inr (.inl ⟨_, .noRegion hpayload hregion, hupdate⟩)
    | run stage =>
      obtain ⟨_, later, hrun⟩ | ⟨e, hrefuses, hrun⟩ | ⟨cause, hmisreads, hrun⟩ := run_cases hstopped stage
      · exact .inl ⟨later, Step.map_ok hrun⟩
      · exact .inr (.inl ⟨e, hrefuses, Step.map_error hrun⟩)
      · exact .inr (.inr ⟨stage, cause, rfl, hmisreads, Step.map_error hrun⟩)
    | stop => exact .inl ⟨_, rfl⟩
    | pushTestResults results => exact .inl ⟨_, rfl⟩

/-- The service after a history of calls, granted or not. -/
def play (s : Loopback) (calls : List LoopbackCall) : Loopback :=
  calls.foldl (fun s call => Step.after call.make s) s

/-- The calls of a history that are granted. -/
def granted (s : Loopback) : List LoopbackCall → List LoopbackCall
  | [] => []
  | call :: rest =>
    match call.make s with
    | .ok _ later => call :: later.granted rest
    | .error _ later => later.granted rest

/-- Whether a run of a history comes upon a region that cannot be read. -/
def MisreadsIn (s : Loopback) (calls : List LoopbackCall) : Prop :=
  ∃ before stage after, calls = before ++ .run stage :: after ∧ (s.play before).Misreads stage

/-- A history without such a run leads where its granted calls lead. -/
theorem play_granted {calls : List LoopbackCall} (h : ¬ s.MisreadsIn calls) :
    s.play (s.granted calls) = s.play calls := by
  induction calls generalizing s with
  | nil => rfl
  | cons call rest ih =>
    have hrest : ¬ (Step.after call.make s).MisreadsIn rest := by
      rintro ⟨before, stage, after, hcalls, hmisreads⟩
      exact h ⟨call :: before, stage, after, by rw [hcalls, List.cons_append], hmisreads⟩
    unfold granted
    obtain ⟨later, hmake⟩ | ⟨e, _, hmake⟩ | ⟨stage, cause, rfl, hmisreads, _⟩ := s.make_cases call
    · rw [Step.after_ok hmake] at hrest
      simp only [hmake, play, List.foldl_cons, Step.after_ok hmake]
      exact ih hrest
    · rw [Step.after_error hmake] at hrest
      simp only [hmake, play, List.foldl_cons, Step.after_error hmake]
      exact ih hrest
    · exact absurd ⟨[], stage, rest, rfl, hmisreads⟩ h

/-- Whatever calls came before, a call that fails changes nothing, and failed calls can be left out
of a history, but for runs that come upon a Core region too short to be read. Such a run has
entered its stage. -/
theorem failed_spec (keySpace : Nat) (calls : List LoopbackCall) {call : LoopbackCall} {e : Error} {later : Loopback}
    (h : call.make (play { keySpace } calls) = .error e later) :
    let s := play { keySpace } calls
    (s.Refuses call e ∧ later = s ∨
        ∃ stage cause, call = .run stage ∧ s.Misreads stage ∧ e = .wire cause ∧ later = s.entered stage) ∧
      (¬ MisreadsIn { keySpace } calls → s = play { keySpace } (granted { keySpace } calls)) := by
  refine ⟨?_, fun hread => (play_granted hread).symm⟩
  obtain ⟨_, hmake⟩ | ⟨_, hrefuses, hmake⟩ | ⟨stage, cause, rfl, hmisreads, hmake⟩ :=
    (play { keySpace } calls).make_cases call
  · cases hmake.symm.trans h
  · cases hmake.symm.trans h
    exact .inl ⟨hrefuses, rfl⟩
  · cases hmake.symm.trans h
    exact .inr ⟨stage, cause, rfl, hmisreads, rfl, rfl⟩

section Example

/-- A test of one example. -/
def oneTest : StageDescriptor := ⟨0, .test, .dougsMomentum, true, 1, 1⟩

/-- One Threshold unit is placed and loaded with the test and with a Core region of one byte, with
results queued for the test. -/
def shortCore : List LoopbackCall :=
  [.pushTestResults { epochsTrained := 1 },
    .place { units := #[{ id := .threshold 1 0, role := .threshold, group := 1, subgroup := 0, units := 1 }] },
    .load [⟨.threshold 1 0, .threshold, [(.core, [0]), (.stage, oneTest.bytes)]⟩]]

/-- A test that the units do not hold is refused. -/
theorem failed_spec_stale : ∃ later,
    (LoopbackCall.run { oneTest with id := 1 }).make (play { keySpace := 1 } shortCore) =
      .error (.placement (.staleStage (.threshold 1 0))) later ∧
    later = play { keySpace := 1 } shortCore := by
  obtain ⟨later, h⟩ : ∃ later, (LoopbackCall.run { oneTest with id := 1 }).make (play { keySpace := 1 } shortCore) =
      .error (.placement (.staleStage (.threshold 1 0))) later := ⟨_, rfl⟩
  obtain ⟨⟨_, hlater⟩ | ⟨_, _, _, _, hother, _⟩, _⟩ := failed_spec 1 shortCore h
  · exact ⟨later, h, hlater⟩
  · cases hother

/-- The test that they hold fails as well, but it is in the log, and the results queued for it are
gone. -/
theorem failed_run_entered : ∃ later,
    (LoopbackCall.run oneTest).make (play { keySpace := 1 } shortCore) = .error (.wire (.truncated 1 3 0)) later ∧
    (play { keySpace := 1 } shortCore).runs = #[] ∧ later.runs = #[oneTest] ∧
    (play { keySpace := 1 } shortCore).queued = [{ epochsTrained := 1 }] ∧ later.queued = [] :=
  ⟨_, rfl, rfl, rfl, rfl, rfl⟩

end Example

end Loopback

end PerceptronMesh

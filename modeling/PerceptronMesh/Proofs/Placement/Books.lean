import PerceptronMesh.Proofs.Placement.Logged

/-!
The books of the loopback: the stages it ran, the results that are queued for tests and the epochs
it trained. Only a run changes them, and what it reports is read off them.
-/

namespace PerceptronMesh

namespace Loopback

structure Books where
  runs : Array StageDescriptor
  queued : List TestResults
  epochsTrained : UInt32

def books (s : Loopback) : Books := ⟨s.runs, s.queued, s.epochsTrained⟩

namespace Books

/-- What a stage reports: the oldest queued results for a test, or what was trained and is tested. -/
def results (b : Books) (stage : StageDescriptor) : Option TestResults :=
  match stage.mode with
  | .train => none
  | .test => some (b.queued.headD { epochsTrained := b.epochsTrained, examplesTested := stage.examples })

/-- The books after a stage. -/
def afterRun (b : Books) (stage : StageDescriptor) : Books :=
  match stage.mode with
  | .train => { b with runs := b.runs.push stage, epochsTrained := b.epochsTrained + stage.epochs }
  | .test => { b with runs := b.runs.push stage, queued := b.queued.tail }

end Books

variable {s later : Loopback} {b : Books}

theorem keeps_books_place (g : Graph) : Step.Keeps (fun s => s.books = b) (place g) := by
  refine (keeps_checkRunning _).bind fun _ => Step.keeps_get.bind fun s => (Step.keeps_ofResult _).bind fun keys => ?_
  refine Step.Keeps.bind (Step.keeps_modify ?_) fun _ => Step.keeps_pure _
  intro _ h
  exact h

theorem keeps_books_load (payloads : List UnitPayload) : Step.Keeps (fun s => s.books = b) (load payloads) :=
  keeps_load (fun _ _ h => h) payloads

theorem keeps_books_updateRegion (unit : UnitId) (region : Region) (data : List UInt8) :
    Step.Keeps (fun s => s.books = b) (updateRegion unit region data) := by
  refine (keeps_checkRunning _).bind fun _ => Step.keeps_get.bind fun s => ?_
  cases s.payload? unit with
  | none => exact Step.keeps_throw _
  | some p =>
    exact Step.keeps_ite (Step.keeps_throw_bind _ _) (Step.keeps_modify fun _ h => h)

theorem nextTestResults_eq_ok {stage : StageDescriptor} {results : TestResults}
    (h : nextTestResults stage s = .ok results later) :
    results = s.queued.headD { epochsTrained := s.epochsTrained, examplesTested := stage.examples } ∧
      later.books = { s.books with queued := s.queued.tail } := by
  unfold nextTestResults at h
  rw [Step.bind_ok (x := get) rfl] at h
  cases hqueued : s.queued with
  | nil =>
    simp only [hqueued] at h
    cases h
    exact ⟨rfl, by simp [books, hqueued]⟩
  | cons first rest =>
    simp only [hqueued] at h
    cases h
    exact ⟨rfl, rfl⟩

/-- A run enters its stage and reports on it. -/
theorem books_of_run {stage : StageDescriptor} {report : StageReport} (h : run stage s = .ok report later) :
    report.stageId = stage.id ∧ report.mode = stage.mode ∧ report.testResults = s.books.results stage ∧
      later.books = s.books.afterRun stage := by
  have hrecord (entered : Loopback) (results : Option TestResults)
      (h : (do
        let outputs ← recordOutputs stage
        pure ({ stageId := stage.id, mode := stage.mode, testResults := results, outputs } : StageReport)) entered =
          .ok report later) :
      report.stageId = stage.id ∧ report.mode = stage.mode ∧ report.testResults = results ∧
        later.books = entered.books := by
    obtain ⟨outputs, last, houtputs, h⟩ := Step.bind_eq_ok_iff.1 h
    cases h
    exact ⟨rfl, rfl, rfl, (keeps_recordOutputs (P := fun s => s.books = entered.books) (fun _ _ h => h) stage).ok
      rfl houtputs⟩
  unfold run at h
  obtain ⟨_, _, hcheck, h⟩ := Step.bind_eq_ok_iff.1 h
  cases checkRunning_eq_ok hcheck
  rw [Step.bind_ok (x := get) rfl] at h
  cases hloaded : s.payloads.isEmpty with
  | true =>
    simp only [hloaded] at h
    cases h
  | false =>
    cases hstale : s.staleUnit? stage with
    | some unit =>
      simp only [hloaded, hstale] at h
      cases h
    | none =>
      simp only [hloaded, hstale, Bool.false_eq_true, if_false] at h
      rw [Step.bind_ok (x := modify _) rfl] at h
      obtain ⟨id, mode, updateFunction, reset, examples, epochs⟩ := stage
      cases mode with
      | train => exact hrecord { s with runs := s.runs.push _, epochsTrained := s.epochsTrained + epochs } none h
      | test =>
        obtain ⟨_, entered, hnext, h⟩ := Step.bind_eq_ok_iff.1 h
        obtain ⟨results, hresults, rfl⟩ := Step.map_eq_ok hnext
        obtain ⟨rfl, hbooks⟩ := nextTestResults_eq_ok hresults
        obtain ⟨hid, hmode, hreported, hlater⟩ := hrecord _ _ h
        exact ⟨hid, hmode, hreported, hlater.trans hbooks⟩

end Loopback

end PerceptronMesh

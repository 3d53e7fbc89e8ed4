import PerceptronMesh.Proofs.Network.Recording
import PerceptronMesh.Proofs.Placement.Books

/-!
Accounts of the stages that were completed. The number of the next stage is kept by the network,
the runs, the queued results and the trained epochs by its service; all of them, and every report,
can be told from a log of the calls. Stages that are aborted or fail are no part of the log.
-/

namespace PerceptronMesh

open Numeric

/-- A stage that a call completed, with the network that the call found. -/
structure CompletedStage where
  found : Network Loopback
  call : StageCall
  report : StageReport

/-- What of a call is logged. -/
inductive LogEntry where
  | queued (results : TestResults)
  | completed (stage : CompletedStage)

abbrev Log := List LogEntry

/-- The stage that a call is for. What the call leaves open is taken from the settings and from the
number of examples. -/
def StageCall.stage (call : StageCall) (id : UInt32) (settings : Settings) (examples : Nat) : StageDescriptor :=
  match call with
  | .train _ updateFunction updates =>
    { id, mode := .train, updateFunction := updateFunction.getD settings.updateFunction, reset := true
      examples := UInt32.ofNat examples, epochs := updates.getD settings.updates }
  | .test _ tested reset =>
    { id, mode := .test, updateFunction := settings.updateFunction, reset
      examples := tested.getD (UInt32.ofNat examples), epochs := 1 }

namespace CompletedStage

/-- The completed stage under a number. -/
def stage (c : CompletedStage) (id : UInt32) : StageDescriptor :=
  c.call.stage id c.found.settings ((c.found.exampleSet.map (·.examples.length)).getD 0)

end CompletedStage

namespace LogEntry

def completed? : LogEntry → Option CompletedStage
  | .queued _ => none
  | .completed c => some c

/-- Epochs of a training stage. -/
def epochsTrained : LogEntry → Nat
  | .queued _ => 0
  | .completed c =>
    match c.call with
    | .train _ _ updates => (updates.getD c.found.settings.updates).toNat
    | .test _ _ _ => 0

/-- Queued results that no test has taken yet. A test takes the oldest. -/
def unusedAfter (unused : List TestResults) : LogEntry → List TestResults
  | .queued results => unused ++ [results]
  | .completed c =>
    match c.call with
    | .train _ _ _ => unused
    | .test _ _ _ => unused.tail

end LogEntry

namespace Log

variable (log : Log)

def completed : List CompletedStage := log.filterMap LogEntry.completed?

/-- The completed stages, numbered from 0 on. -/
def runs : List StageDescriptor := log.completed.mapIdx fun i c => c.stage (UInt32.ofNat i)

def epochsTrained : Nat := (log.map LogEntry.epochsTrained).sum

def unused : List TestResults := log.foldl LogEntry.unusedAfter []

/-- What the service has on its books after the log. -/
def books : Loopback.Books := ⟨log.runs.toArray, log.unused, UInt32.ofNat log.epochsTrained⟩

/-- The report of a stage that comes after the log. -/
structure Reports (c : CompletedStage) : Prop where
  stageId_eq : c.report.stageId = UInt32.ofNat log.completed.length
  mode_eq : c.report.mode = (c.stage c.report.stageId).mode
  testResults_eq : c.report.testResults =
    match c.call with
    | .train _ _ _ => none
    | .test _ _ _ => some (log.unused.headD
        { epochsTrained := UInt32.ofNat log.epochsTrained, examplesTested := (c.stage c.report.stageId).examples })

end Log

namespace Log

variable {log : Log}

theorem completed_queued (log : Log) (results : TestResults) :
    completed (log ++ [.queued results]) = log.completed := by
  have happend : completed (log ++ [.queued results]) = log.completed ++ [] := List.filterMap_append
  rw [happend, List.append_nil]

theorem completed_concat (log : Log) (c : CompletedStage) :
    completed (log ++ [.completed c]) = log.completed ++ [c] :=
  List.filterMap_append

theorem books_queued (log : Log) (results : TestResults) :
    Log.books (log ++ [.queued results]) = { log.books with queued := log.unused ++ [results] } := by
  have hcompleted := completed_queued log results
  simp [books, runs, unused, epochsTrained, hcompleted, LogEntry.unusedAfter, LogEntry.epochsTrained]

/-- A completed stage is entered as one that the service ran. -/
theorem books_completed (log : Log) (c : CompletedStage) :
    Log.books (log ++ [.completed c]) = log.books.afterRun (c.stage (UInt32.ofNat log.completed.length)) := by
  have hcompleted := completed_concat log c
  obtain ⟨found, call, report⟩ := c
  cases call with
  | train files updateFunction updates =>
    simp [books, runs, unused, epochsTrained, hcompleted, LogEntry.unusedAfter, LogEntry.epochsTrained,
      CompletedStage.stage, StageCall.stage, Loopback.Books.afterRun, List.mapIdx_append, UInt32.ofNat_add]
  | test files tested reset =>
    simp [books, runs, unused, epochsTrained, hcompleted, LogEntry.unusedAfter, LogEntry.epochsTrained,
      CompletedStage.stage, StageCall.stage, Loopback.Books.afterRun, List.mapIdx_append]

/-- A completed stage of a longer log is its last entry or one of those before. -/
theorem split_concat {before after : Log} {entry : LogEntry} {c : CompletedStage}
    (h : log ++ [entry] = before ++ .completed c :: after) :
    (log = before ∧ entry = .completed c) ∨ ∃ rest, log = before ++ .completed c :: rest := by
  rcases List.eq_nil_or_concat after with rfl | ⟨rest, last, rfl⟩
  · obtain ⟨hlog, hentry⟩ := List.append_inj' h rfl
    exact .inl ⟨hlog, (List.cons.inj hentry).1⟩
  · rw [List.concat_eq_append, ← List.cons_append, ← List.append_assoc] at h
    exact .inr ⟨rest, (List.append_inj' h rfl).1⟩

end Log

namespace Network

variable {n later : Network Loopback} {past : Log}

/-- What a stage adds to the log. -/
def stageEntries (n : Network Loopback) (call : StageCall) : Log :=
  match call.run n with
  | .ok (.completed report) _ => [.completed ⟨n, call, report⟩]
  | _ => []

/-- What a call adds to the log. -/
def entriesOf (n : Network Loopback) : NetworkCall → Log
  | .pushTestResults results => [.queued results]
  | .stage call => n.stageEntries call
  | _ => []

/-- The log of calls. -/
def stageLog (n : Network Loopback) : List NetworkCall → Log
  | [] => []
  | call :: rest => n.entriesOf call ++ (n.afterCall call).stageLog rest

/-- The numbers and reports of a network are those of its log. -/
structure Accounted (n : Network Loopback) (log : Log) : Prop where
  stageId_eq : n.stageId = UInt32.ofNat log.completed.length
  books_eq : n.service.books = log.books
  reports : ∀ {before after : Log} {c : CompletedStage}, log = before ++ .completed c :: after → before.Reports c

section Books

variable {books : Loopback.Books} {stageId : UInt32}

/-- The numbers that a stage is accounted with. -/
def HasBooks (books : Loopback.Books) (stageId : UInt32) (n : Network Loopback) : Prop :=
  n.service.books = books ∧ n.stageId = stageId

theorem keeps_books_onService {α : Type} {step : Step Loopback α}
    (hstep : Step.Keeps (fun s => s.books = books) step) : Step.Keeps (HasBooks books stageId) (onService step) := by
  rintro n ⟨hbooks, hid⟩
  cases h : step n.service with
  | ok a service =>
    have hwhole : onService step n = .ok a { n with service } := Step.onPart_ok h
    rw [Step.after_ok hwhole]
    exact ⟨hstep.ok hbooks h, hid⟩
  | error e service =>
    have hwhole : onService step n = .error e { n with service } := Step.onPart_error h
    rw [Step.after_error hwhole]
    exact ⟨hstep.error hbooks h, hid⟩

/-- Units are made ready for a stage before it is entered. -/
theorem keeps_books_prepareGraph (stage : StageDescriptor) :
    Step.Keeps (HasBooks books stageId) (prepareGraph stage) := by
  have hrequests : BearsRequests (HasBooks books stageId) :=
    ⟨fun g => keeps_books_onService (Loopback.keeps_books_place g),
      fun payloads => keeps_books_onService (Loopback.keeps_books_load payloads),
      fun unit region data => keeps_books_onService (Loopback.keeps_books_updateRegion unit region data)⟩
  have hmarks : IgnoresMarks (HasBooks books stageId) := fun _ _ _ h => h
  exact keeps_prepareGraph hrequests hmarks (keeps_buildGraph hrequests fun _ _ _ h => h) stage

end Books

/-- A stage is entered once on the books, under the number of the network, and reported from them. -/
structure Enters (n : Network Loopback) (stage : StageDescriptor) (report : StageReport) (later : Network Loopback) :
    Prop where
  next_eq : later.stageId = n.stageId + 1
  books_eq : later.service.books = n.service.books.afterRun stage
  stageId_eq : report.stageId = n.stageId
  mode_eq : report.mode = stage.mode
  testResults_eq : report.testResults = n.service.books.results stage

theorem enters_of_runChecked {request : StageRequest} {report : StageReport}
    (h : runChecked request n = .ok (.completed report) later) : n.Enters (n.descriptor request) report later := by
  unfold runChecked at h
  rw [Step.bind_ok (x := get) rfl] at h
  obtain ⟨_, ready, hprepare, h⟩ := Step.bind_eq_ok_iff.1 h
  obtain ⟨_, ran, hrun, h⟩ := Step.bind_eq_ok_iff.1 h
  cases h
  obtain ⟨hbooks, hid⟩ := (keeps_books_prepareGraph (n.descriptor request)).ok ⟨rfl, rfl⟩ hprepare
  obtain ⟨service, hservice, rfl⟩ := Step.onPart_eq_ok hrun
  obtain ⟨hnumber, hmode, hresults, hafter⟩ := Loopback.books_of_run hservice
  refine ⟨congrArg (· + 1) hid, ?_, hnumber, hmode, ?_⟩
  · rw [← hbooks]
    exact hafter
  · rw [hresults, hbooks]

theorem stageEntries_of_completed {call : StageCall} {report : StageReport}
    (h : call.run n = .ok (.completed report) later) : n.stageEntries call = [.completed ⟨n, call, report⟩] := by
  unfold stageEntries
  rw [h]

theorem stageEntries_of_not_completed {call : StageCall}
    (h : ∀ report later, call.run n ≠ .ok (.completed report) later) : n.stageEntries call = [] := by
  unfold stageEntries
  split
  · rename_i report later hrun
    exact absurd hrun (h report later)
  · rfl

theorem entriesOf_of_other {call : NetworkCall} (hstage : ∀ stage, call ≠ .stage stage)
    (hqueue : ∀ results, call ≠ .pushTestResults results) : n.entriesOf call = [] := by
  unfold entriesOf
  split
  · exact absurd rfl (hqueue _)
  · exact absurd rfl (hstage _)
  · rfl

/-- A network describes the stage of a call under the number that it has reached. -/
theorem descriptor_eq_stage (n : Network Loopback) (call : StageCall) :
    n.descriptor (call.request n.settings) =
      call.stage n.stageId n.settings ((n.exampleSet.map (·.examples.length)).getD 0) := by
  cases call <;> rfl

/-- A call that completes its stage finds the books and the number as they were before its checks. -/
theorem Sound.enters_of_completed (hn : n.Sound) {call : StageCall} {report : StageReport}
    (h : call.run n = .ok (.completed report) later) :
    n.Enters (n.descriptor (call.request n.settings)) report later := by
  obtain ⟨_, _, checked, _, hrun⟩ | ⟨checked, _, hchecked, _, hrun⟩ := hn.checked_cases call
  case inl => cases h.symm.trans hrun
  have hdescriptor : checked.descriptor (call.request n.settings) = n.descriptor (call.request n.settings) :=
    hchecked.descriptor_eq _
  have henters := enters_of_runChecked (hrun.symm.trans h)
  rw [hdescriptor] at henters
  obtain ⟨_, _, _, rfl⟩ := hchecked.changed
  exact ⟨henters.next_eq, henters.books_eq, henters.stageId_eq, henters.mode_eq, henters.testResults_eq⟩

namespace Accounted

variable (hn : n.Accounted past)
include hn

theorem of_kept (hid : later.stageId = n.stageId) (hbooks : later.service.books = n.service.books) :
    later.Accounted past :=
  ⟨hid.trans hn.stageId_eq, hbooks.trans hn.books_eq, hn.reports⟩

theorem pushTestResults (results : TestResults) :
    { n with service := n.service.pushTestResults results }.Accounted (past ++ [LogEntry.queued results]) := by
  refine ⟨?_, ?_, ?_⟩
  · rw [hn.stageId_eq, Log.completed_queued]
  · have hqueued : n.service.queued = past.unused := congrArg Loopback.Books.queued hn.books_eq
    rw [Log.books_queued, ← hqueued, ← hn.books_eq]
    rfl
  · intro before after c h
    obtain ⟨_, hentry⟩ | ⟨rest, hpast⟩ := Log.split_concat h
    · cases hentry
    · exact hn.reports hpast

/-- What a network reports on a stage is what its log says. -/
theorem reports_completed {call : StageCall} {report : StageReport}
    (h : n.Enters (n.descriptor (call.request n.settings)) report later) : past.Reports ⟨n, call, report⟩ := by
  refine ⟨h.stageId_eq.trans hn.stageId_eq, ?_, ?_⟩
  · rw [h.mode_eq]
    cases call <;> rfl
  · rw [h.testResults_eq, hn.books_eq]
    cases call <;> rfl

theorem completed (hsound : n.Sound) {call : StageCall} {report : StageReport}
    (h : call.run n = .ok (.completed report) later) :
    later.Accounted (past ++ [.completed ⟨n, call, report⟩]) := by
  have henters := hsound.enters_of_completed h
  refine ⟨?_, ?_, ?_⟩
  · rw [henters.next_eq, hn.stageId_eq, Log.completed_concat, List.length_append, UInt32.ofNat_add]
    rfl
  · rw [henters.books_eq, hn.books_eq, Log.books_completed, descriptor_eq_stage, hn.stageId_eq]
    rfl
  · intro before after c hsplit
    obtain ⟨rfl, hentry⟩ | ⟨rest, hpast⟩ := Log.split_concat hsplit
    · cases hentry
      exact hn.reports_completed henters
    · exact hn.reports hpast

theorem afterStage (hsound : n.Sound) (call : StageCall) :
    (Step.after call.run n).Accounted (past ++ n.stageEntries call) := by
  obtain ⟨report, later, h⟩ | ⟨hnot, topology, exampleSet, weightsLoaded, aborted, hafter, _⟩ :=
    hsound.completed_or_kept call
  · rw [Step.after_ok h, stageEntries_of_completed h]
    exact hn.completed hsound h
  · rw [hafter, stageEntries_of_not_completed hnot, List.append_nil]
    exact hn.of_kept rfl rfl

/-- One call keeps the accounts. -/
theorem afterCall (hsound : n.Sound) (call : NetworkCall) :
    (n.afterCall call).Accounted (past ++ n.entriesOf call) := by
  by_cases hstage : ∃ stage, call = .stage stage
  · obtain ⟨stage, rfl⟩ := hstage
    exact hn.afterStage hsound stage
  by_cases hqueue : ∃ results, call = .pushTestResults results
  · obtain ⟨results, rfl⟩ := hqueue
    exact hn.pushTestResults results
  -- all other calls enter nothing
  have hstage : ∀ stage, call ≠ .stage stage := fun stage h => hstage ⟨stage, h⟩
  have hqueue : ∀ results, call ≠ .pushTestResults results := fun results h => hqueue ⟨results, h⟩
  have hkeeps := n.keepsRuns_afterCall hstage hqueue
  have hbooks : (n.afterCall call).service.books = n.service.books := (congrArg Loopback.books hkeeps.service_eq :)
  rw [entriesOf_of_other hstage hqueue, List.append_nil]
  exact hn.of_kept hkeeps.stageId_eq hbooks

theorem afterCalls (hsound : n.Sound) (calls : List NetworkCall) :
    (n.afterCalls calls).Accounted (past ++ n.stageLog calls) := by
  induction calls generalizing n past with
  | nil =>
    rw [stageLog, List.append_nil]
    exact hn
  | cons call rest ih =>
    have hrest := ih (hn.afterCall hsound call) (hsound.afterCall call)
    rw [List.append_assoc] at hrest
    exact hrest

end Accounted

theorem accounted_of_make {settings : Settings} {configuration : Configuration} {keySpace : Nat}
    (h : Network.make settings configuration ({ keySpace } : Loopback) = .ok n) : n.Accounted [] := by
  obtain ⟨_, _, _, rfl⟩ := make_eq_ok h
  refine ⟨rfl, rfl, ?_⟩
  intro before after c hsplit
  cases before <;> cases hsplit

/-- Whatever calls are made, the number of the next stage, the stages that the service has run, the
results that are still queued and what was trained are those of the stages that were completed, and
each of these was reported as the stages before it say. Sums are words. -/
theorem stage_accounts {settings : Settings} {configuration : Configuration} {keySpace : Nat}
    (hmake : Network.make settings configuration ({ keySpace } : Loopback) = .ok n) (calls : List NetworkCall) :
    (n.afterCalls calls).Accounted (n.stageLog calls) :=
  (accounted_of_make hmake).afterCalls (Reachable.make hmake).sound calls

/-- Calls with results for one of two tests. A first stage is aborted, since the network has neither
weights nor examples. -/
def scriptedCalls : List NetworkCall :=
  .pushTestResults { epochsTrained := 7 } :: .stage (.test noLinkFiles none true) :: biasCalls ++
    [.stage (.test noLinkFiles none true), .stage (.train noLinkFiles none (some 5)),
      .stage (.test noLinkFiles none false)]

/-- The test that is completed first takes the results, and the other tells what was trained. -/
theorem stage_accounts_scripted : ∃ n, Network.make {} {} ({ keySpace := 65536 } : Loopback) = .ok n ∧
    (n.afterCalls scriptedCalls).Accounted (n.stageLog scriptedCalls) ∧
    (n.stageLog scriptedCalls).completed.map (fun c => (c.report.stageId, c.report.testResults)) =
      [(0, some { epochsTrained := 7 }), (1, none), (2, some { epochsTrained := 5, examplesTested := 1 })] := by
  obtain ⟨n, hmake, hreports⟩ : ∃ n, Network.make {} {} ({ keySpace := 65536 } : Loopback) = .ok n ∧
      (n.stageLog scriptedCalls).completed.map (fun c => (c.report.stageId, c.report.testResults)) =
        [(0, some { epochsTrained := 7 }), (1, none), (2, some { epochsTrained := 5, examplesTested := 1 })] :=
    ⟨_, rfl, by decide +kernel⟩
  exact ⟨n, hmake, stage_accounts hmake scriptedCalls, hreports⟩

end Network

end PerceptronMesh

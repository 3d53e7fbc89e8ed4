import PerceptronMesh.Placement.Loopback
import PerceptronMesh.Proofs.Placement.Step

/-!
A service that keeps a log of what it is asked for. It answers as the service within it does, so
that the requests of a step can be read off a run of that step over it.
-/

namespace PerceptronMesh

/-- What a service can be asked for, without what it is given for it. -/
inductive ServiceRequest where
  | place
  | load
  | updateRegion (unit : UnitId) (region : Region)
  | run
  | stop
deriving DecidableEq, Repr

namespace ServiceRequest

/-- The region that is to be written. -/
def update? : ServiceRequest → Option (UnitId × Region)
  | .updateRegion unit region => some (unit, region)
  | _ => none

end ServiceRequest

/-- A service with the requests that it got, the first of them first. -/
structure Logged (σ : Type) where
  service : σ
  requests : List ServiceRequest := []

namespace Logged

variable {σ α : Type}

/-- Notes a request and passes it on. -/
def log (request : ServiceRequest) (step : Step σ α) : Step (Logged σ) α := do
  modify fun l => { l with requests := l.requests ++ [request] }
  Step.onPart Logged.service (fun service l => { l with service }) step

instance [PlacementService σ] : PlacementService (Logged σ) where
  place g := log .place (PlacementService.place g)
  load payloads := log .load (PlacementService.load payloads)
  updateRegion unit region data := log (.updateRegion unit region) (PlacementService.updateRegion unit region data)
  run stage := log .run (PlacementService.run stage)
  stop := log .stop PlacementService.stop

theorem log_ok {request : ServiceRequest} {step : Step σ α} {service later : σ} {a : α}
    (h : step service = .ok a later) (past : List ServiceRequest) :
    log request step ⟨service, past⟩ = .ok a ⟨later, past ++ [request]⟩ := by
  unfold log
  rw [Step.bind_ok (x := modify _) rfl]
  exact Step.onPart_ok h

theorem log_error {request : ServiceRequest} {step : Step σ α} {service later : σ} {e : Error}
    (h : step service = .error e later) (past : List ServiceRequest) :
    log request step ⟨service, past⟩ = .error e ⟨later, past ++ [request]⟩ := by
  unfold log
  rw [Step.bind_ok (x := modify _) rfl]
  exact Step.onPart_error h

end Logged

namespace Loopback

variable {s middle later : Loopback}

/-- The regions that were written, in the order of the updates. -/
def updated (s : Loopback) : List (UnitId × Region) := s.updates.toList.map fun u => (u.unit, u.region)

/-- What the loopback counts of requests that it granted. -/
structure Granted (s : Loopback) (requests : List ServiceRequest) (later : Loopback) : Prop where
  updated_eq : later.updated = s.updated ++ requests.filterMap ServiceRequest.update?
  placeCalls_eq : later.placeCalls = s.placeCalls + requests.count .place

theorem Granted.refl (s : Loopback) : s.Granted [] s := ⟨by simp, by simp⟩

theorem Granted.trans {first rest : List ServiceRequest} (hfirst : s.Granted first middle)
    (hrest : middle.Granted rest later) : s.Granted (first ++ rest) later := by
  refine ⟨?_, ?_⟩
  · rw [hrest.updated_eq, hfirst.updated_eq, List.filterMap_append, List.append_assoc]
  · rw [hrest.placeCalls_eq, hfirst.placeCalls_eq, List.count_append, Nat.add_assoc]

section Keeps

variable {P : Loopback → Prop}

theorem keeps_checkRunning (call : ServiceCall) : Step.Keeps P (checkRunning call) :=
  Step.keeps_get.bind fun _ => Step.keeps_ite (Step.keeps_throw _) (Step.keeps_pure _)

theorem keeps_load (hpayloads : ∀ payloads s, P s → P { s with payloads }) (payloads : List UnitPayload) :
    Step.Keeps P (load payloads) := by
  refine (keeps_checkRunning _).bind fun _ => Step.keeps_get.bind fun s => ?_
  exact Step.keeps_ite (Step.keeps_throw_bind _ _) (Step.keeps_modify (hpayloads _))

theorem keeps_recordOutputs (hcursor : ∀ cursor s, P s → P { s with cursor }) (stage : StageDescriptor) :
    Step.Keeps P (recordOutputs stage) := by
  rintro s h
  unfold Step.after recordOutputs
  rw [Step.bind_ok (x := get) rfl]
  cases s.writers.mapError Error.wire with
  | error e => exact h
  | ok writers => exact hcursor _ s h

theorem keeps_nextTestResults (hqueued : ∀ queued s, P s → P { s with queued }) (stage : StageDescriptor) :
    Step.Keeps P (nextTestResults stage) := by
  rintro s h
  unfold Step.after nextTestResults
  rw [Step.bind_ok (x := get) rfl]
  cases s.queued with
  | nil => exact h
  | cons results rest => exact hqueued rest s h

/-- A run changes the books and the cursor, and nothing else. -/
theorem keeps_run (hbooks : ∀ runs queued epochsTrained cursor s, P s → P { s with runs, queued, epochsTrained, cursor })
    (stage : StageDescriptor) : Step.Keeps P (run stage) := by
  unfold run
  refine (keeps_checkRunning _).bind fun _ => Step.keeps_get.bind fun s => ?_
  have hreport (report : Option RecordedOutputs → StageReport) :
      Step.Keeps P (recordOutputs stage >>= fun outputs => pure (report outputs)) :=
    (keeps_recordOutputs (fun cursor s => hbooks s.runs s.queued s.epochsTrained cursor s) stage).bind
      fun _ => Step.keeps_pure _
  refine Step.keeps_ite (Step.keeps_throw_bind _ _) ?_
  cases s.staleUnit? stage with
  | some unit => exact Step.keeps_throw_bind _ _
  | none =>
    refine (Step.keeps_modify fun s => hbooks (s.runs.push stage) s.queued s.epochsTrained s.cursor s).bind fun _ => ?_
    cases stage.mode with
    | train =>
      exact (Step.keeps_modify fun s => hbooks s.runs s.queued (s.epochsTrained + stage.epochs) s.cursor s).bind
        fun _ => (Step.keeps_pure _).bind fun _ => hreport _
    | test =>
      have hnext := keeps_nextTestResults (fun queued s => hbooks s.runs queued s.epochsTrained s.cursor s) stage
      exact (hnext.map _).bind fun _ => hreport _

variable {updates : Array RegionUpdate} {placeCalls : Nat}

/-- Only updates and placements are counted. -/
def Counts (updates : Array RegionUpdate) (placeCalls : Nat) (s : Loopback) : Prop :=
  s.updates = updates ∧ s.placeCalls = placeCalls

end Keeps

theorem checkRunning_eq_ok {call : ServiceCall} {u : Unit} (h : checkRunning call s = .ok u later) : later = s :=
  (keeps_checkRunning (P := fun other => other = s) call).ok rfl h

/-- A request that neither places nor writes a region is not counted. -/
theorem granted_of_keeps {α : Type} {x : Step Loopback α} {a : α} {request : ServiceRequest}
    (hx : ∀ updates placeCalls, Step.Keeps (Counts updates placeCalls) x) (hupdate : request.update? = none)
    (hplace : request ≠ .place) (h : x s = .ok a later) : s.Granted [request] later := by
  obtain ⟨hupdates, hcalls⟩ := (hx _ _).ok ⟨rfl, rfl⟩ h
  refine ⟨?_, ?_⟩
  · rw [updated, hupdates, List.filterMap_cons_none hupdate, List.filterMap_nil, List.append_nil]
    rfl
  · rw [hcalls, List.count_singleton, if_neg (by simpa using hplace), Nat.add_zero]

theorem granted_place {g : Graph} {table : RoutingTable} (h : place g s = .ok table later) :
    s.Granted [.place] later := by
  unfold place at h
  obtain ⟨_, _, hcheck, h⟩ := Step.bind_eq_ok_iff.1 h
  cases checkRunning_eq_ok hcheck
  rw [Step.bind_ok (x := get) rfl] at h
  cases hkeys : allocate s.keySpace 0 g.partitions with
  | error e =>
    rw [Step.bind_error (Step.ofResult_error hkeys)] at h
    cases h
  | ok keys =>
    rw [Step.bind_ok (Step.ofResult_ok hkeys)] at h
    cases h
    exact ⟨by simp [updated, ServiceRequest.update?], rfl⟩

theorem granted_updateRegion {unit : UnitId} {region : Region} {data : List UInt8} {u : Unit}
    (h : updateRegion unit region data s = .ok u later) : s.Granted [.updateRegion unit region] later := by
  unfold updateRegion at h
  obtain ⟨_, _, hcheck, h⟩ := Step.bind_eq_ok_iff.1 h
  cases checkRunning_eq_ok hcheck
  rw [Step.bind_ok (x := get) rfl] at h
  cases hpayload : s.payload? unit with
  | none =>
    simp only [hpayload] at h
    cases h
  | some p =>
    simp only [hpayload] at h
    cases hregion : p.hasRegion region with
    | false =>
      simp only [hregion] at h
      cases h
    | true =>
      simp only [hregion] at h
      cases h
      exact ⟨by simp [updated, ServiceRequest.update?], rfl⟩

end Loopback

end PerceptronMesh

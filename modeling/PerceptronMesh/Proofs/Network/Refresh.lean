import Mathlib.Tactic.Choose
import PerceptronMesh.Proofs.Network.Preflight
import PerceptronMesh.Proofs.Payload.Total
import PerceptronMesh.Proofs.Placement.Loopback

/-!
Making the units ready for a stage. A graph that is missing is compiled, placed and loaded, and
this fails only if there are too few routing keys. A graph that is loaded gets its stale
regions and the stage, and this does not fail. In the end every unit holds what is built for
the stage from the network as it stands.
-/

namespace PerceptronMesh

namespace Network

variable {n : Network Loopback} {graph : BuiltGraph} {stage : StageDescriptor}

/-- Payloads of which those of the listed units have a region written. -/
def written (region : Region) (data : MeshUnit → List UInt8) (listed : List MeshUnit)
    (payload : MeshUnit → UnitPayload) (u : MeshUnit) : UnitPayload :=
  if u ∈ listed then (payload u).setRegion region (data u) else payload u

section Written

variable {region : Region} {data : MeshUnit → List UInt8} {listed : List MeshUnit}
  {payload : MeshUnit → UnitPayload} {u : MeshUnit}

theorem written_of_mem (h : u ∈ listed) :
    written region data listed payload u = (payload u).setRegion region (data u) := if_pos h

theorem written_of_not_mem (h : u ∉ listed) : written region data listed payload u = payload u :=
  if_neg h

@[simp] theorem written_nil : written region data [] payload = payload := rfl

@[simp] theorem unit_written : (written region data listed payload u).unit = (payload u).unit := by
  unfold written
  split <;> rfl

theorem written_of_ne {other : MeshUnit} (h : other ≠ u) :
    written region data [u] payload other = payload other :=
  written_of_not_mem fun hmem => h (List.mem_singleton.1 hmem)

/-- Writing one unit's region and then those of others. -/
theorem written_cons (h : u ∉ listed) :
    written region data listed (written region data [u] payload) =
      written region data (u :: listed) payload := by
  funext other
  by_cases hsame : other = u
  · rw [hsame, written_of_not_mem h, written_of_mem (List.mem_singleton_self u),
      written_of_mem List.mem_cons_self]
  · unfold written
    simp only [List.mem_cons, List.not_mem_nil, hsame, false_or, if_false]

theorem putPayload_written {units : List MeshUnit} (hids : (units.map (·.id)).Nodup)
    (hunits : ∀ u ∈ units, (payload u).unit = u.id) (hu : u ∈ units) :
    Loopback.putPayload (units.map payload) ((payload u).setRegion region (data u)) =
      units.map (written region data [u] payload) := by
  have hunit : ((payload u).setRegion region (data u)).unit = u.id := hunits u hu
  rw [Loopback.putPayload_of_units hids hunits hu hunit]
  apply List.map_congr_left
  intro other _
  by_cases hsame : other = u
  · rw [if_pos hsame, hsame, written_of_mem (List.mem_singleton_self u)]
  · rw [if_neg hsame, written_of_ne hsame]

/-- Units one after another get a region written. -/
theorem forM_updateRegion {units : List MeshUnit} (hids : (units.map (·.id)).Nodup)
    (step : MeshUnit → Step (Network Loopback) Unit) (hnodup : listed.Nodup)
    (hlisted : ∀ u ∈ listed, u ∈ units)
    (hstep : ∀ u ∈ listed, ∀ n, step u n = onService (PlacementService.updateRegion u.id region (data u)) n)
    (hrunning : n.service.stopped = false) (hpayloads : n.service.payloads = units.map payload)
    (hunits : ∀ u ∈ units, (payload u).unit = u.id)
    (hregion : ∀ u ∈ listed, (payload u).hasRegion region = true) :
    ∃ updates, listed.forM step n = .ok () { n with service := { n.service with
      payloads := units.map (written region data listed payload), updates } } := by
  induction listed generalizing n payload with
  | nil =>
    refine ⟨n.service.updates, ?_⟩
    rw [written_nil, ← hpayloads]
    rfl
  | cons u rest ih =>
    obtain ⟨hnew, hrest⟩ := List.nodup_cons.1 hnodup
    have hu := hlisted u List.mem_cons_self
    have hheld := Loopback.payload?_of_units hids hunits hpayloads hu
    have hupdate := Loopback.updateRegion_ok hrunning hheld (hregion u List.mem_cons_self) (data u)
    have hfirst := (hstep u List.mem_cons_self n).trans (Step.onPart_ok hupdate)
    have hput : Loopback.putPayload n.service.payloads ((payload u).setRegion region (data u)) =
        units.map (written region data [u] payload) := by
      rw [hpayloads, putPayload_written hids hunits hu]
    have hother : ∀ other ∈ rest, (written region data [u] payload other).hasRegion region = true := by
      intro other hmem
      have hne : other ≠ u := by
        rintro rfl
        exact hnew hmem
      rw [written_of_ne hne]
      exact hregion other (List.mem_cons_of_mem _ hmem)
    obtain ⟨updates, hlast⟩ := ih hrest (fun other hmem => hlisted other (List.mem_cons_of_mem _ hmem))
      (fun other hmem => hstep other (List.mem_cons_of_mem _ hmem))
      (n := { n with service := { n.service with
        payloads := Loopback.putPayload n.service.payloads ((payload u).setRegion region (data u))
        updates := n.service.updates.push ⟨u.id, region, (data u).length⟩ } })
      hrunning hput
      (fun other hmem => unit_written.trans (hunits other hmem)) hother
    refine ⟨updates, ?_⟩
    show (step u >>= fun _ => rest.forM step) n = _
    rw [Step.bind_ok hfirst, ← written_cons hnew]
    exact hlast

end Written

/-- What payloads are built from fits together once the graph is compiled and has its keys. -/
theorem source_sound {compiled : CompiledGraph} {routing : RoutingTable}
    (ht : n.topology.Sound) (hfilled : n.topology.Filled)
    (hcompile : compile n.topology n.limits = .ok compiled) (hrouted : routing.Covers compiled.graph)
    (examples : CompiledExamples) :
    (n.source compiled routing examples).Sound :=
  PayloadSource.sound_of_compile (s := n.source compiled routing examples) ht hfilled hcompile hrouted

/-- The network with other payloads and another graph, as writing regions leaves it. -/
def withPayloads (n : Network Loopback) (payloads : List UnitPayload) (updates : Array RegionUpdate)
    (graph : BuiltGraph) : Network Loopback :=
  { n with service := { n.service with payloads, updates }, built := some graph }

namespace Sound

theorem withPayloads (hn : n.Sound) {payloads : List UnitPayload} {updates : Array RegionUpdate}
    (h : (n.withPayloads payloads updates graph).Loaded graph) :
    (n.withPayloads payloads updates graph).Sound := by
  refine ⟨hn.topology, hn.filled, hn.limits, hn.running, ?_⟩
  intro _ other hother
  cases hother
  exact h

end Sound

/-- A region is written to all units of the roles that have it. -/
theorem pushRegions_ok {s : PayloadSource} (hs : s.Sound) (hcompiled : s.compiled = graph.compiled)
    (hsource : n.payloadSource graph.compiled graph.routing = .ok s) (hrunning : n.service.stopped = false)
    {payload : MeshUnit → UnitPayload}
    (hpayloads : n.service.payloads = graph.compiled.graph.units.toList.map payload)
    (hunits : ∀ u ∈ graph.compiled.graph.units.toList, (payload u).unit = u.id)
    (region : Region) (roles : List UnitRole) (content : PayloadSource → MeshUnit → Result (List UInt8))
    (hregion : ∀ u ∈ graph.compiled.graph.units.toList, roles.contains u.role = true →
      (payload u).hasRegion region = true)
    (hcontent : ∀ u ∈ graph.compiled.graph.units.toList, roles.contains u.role = true →
      ∃ data, content s u = .ok data) :
    ∃ (later : MeshUnit → UnitPayload) (updates : Array RegionUpdate),
      (∀ u ∈ graph.compiled.graph.units.toList, roles.contains u.role = true →
        ∃ data, content s u = .ok data ∧ later u = (payload u).setRegion region data) ∧
      (∀ u, ¬roles.contains u.role = true → later u = payload u) ∧
      pushRegions graph region roles content n = .ok () { n with service := { n.service with
        payloads := graph.compiled.graph.units.toList.map later, updates } } := by
  have hids : (graph.compiled.graph.units.toList.map (·.id)).Nodup := hcompiled ▸ hs.nodup_ids
  have hlisted : ∀ u ∈ graph.compiled.graph.units.toList.filter (fun u => roles.contains u.role),
      u ∈ graph.compiled.graph.units.toList ∧ roles.contains u.role = true :=
    fun _ hu => List.mem_filter.1 hu
  choose! data hdata using hcontent
  have hstep : ∀ u ∈ graph.compiled.graph.units.toList.filter (fun u => roles.contains u.role),
      ∀ n : Network Loopback, (do
        let data ← Step.ofResult (content s u)
        onService (PlacementService.updateRegion u.id region data) : Step (Network Loopback) Unit) n =
      onService (PlacementService.updateRegion u.id region (data u)) n := by
    intro u hu n
    obtain ⟨hmem, hrole⟩ := hlisted u hu
    exact Step.bind_ok (Step.ofResult_ok (hdata u hmem hrole))
  obtain ⟨updates, hrun⟩ := forM_updateRegion hids _ ((List.Nodup.of_map _ hids).filter _)
    (fun u hu => (hlisted u hu).1) hstep hrunning hpayloads hunits
    (fun u hu => hregion u (hlisted u hu).1 (hlisted u hu).2)
  refine ⟨written region data
    (graph.compiled.graph.units.toList.filter fun u => roles.contains u.role) payload, updates, ?_, ?_, ?_⟩
  · intro u hu hrole
    exact ⟨data u, hdata u hu hrole, written_of_mem (List.mem_filter.2 ⟨hu, hrole⟩)⟩
  · intro u hrole
    exact written_of_not_mem fun hmem => hrole (List.mem_filter.1 hmem).2
  · unfold pushRegions
    rw [Step.bind_ok (x := get) rfl, Step.bind_ok (Step.ofResult_ok hsource)]
    exact hrun

theorem modifyBuilt_ok (hbuilt : n.built = some graph) (change : BuiltGraph → BuiltGraph) :
    modifyBuilt change n = .ok () { n with built := some (change graph) } := by
  show EStateM.Result.ok () { n with built := n.built.map change } = _
  rw [hbuilt]
  rfl

/-- All units hold what is built for a stage from the network as it stands. -/
structure Ready (n : Network Loopback) (graph : BuiltGraph) (stage : StageDescriptor) : Prop where
  built_eq : n.built = some graph
  running : n.service.stopped = false
  compile_eq : compile n.topology n.limits = .ok graph.compiled
  routed : graph.routing.Covers graph.compiled.graph
  payloads : ∃ (examples : CompiledExamples) (payload : MeshUnit → UnitPayload),
    n.exampleSet.bind (·.compiled) = some examples ∧
    n.service.payloads = graph.compiled.graph.units.toList.map payload ∧
    ∀ u ∈ graph.compiled.graph.units.toList,
      (n.source graph.compiled graph.routing examples).build u stage = .ok (payload u)

namespace Sound

variable (hn : n.Sound) (hended : n.ended = false) (hread : n.weightsLoaded = true)
  (hbuilt : n.built = some graph)
include hn hended hread hbuilt

/-- A region is written to the units that have it and the marks are changed, if what the units
then hold is what the new marks say. -/
theorem push_ok (region : Region) (roles : List UnitRole)
    (content : PayloadSource → MeshUnit → Result (List UInt8)) {weightsStale coresStale : Bool}
    (change : BuiltGraph → BuiltGraph) (hchange : change graph = { graph with weightsStale, coresStale })
    (hwrite : ∀ {s : PayloadSource} {u : MeshUnit} {p : UnitPayload}, s.Sound → u ∈ s.compiled.graph.units →
      roles.contains u.role = true → s.Held graph.weightsStale graph.coresStale u p →
      p.hasRegion region = true ∧
        ∃ data, content s u = .ok data ∧ s.Held weightsStale coresStale u (p.setRegion region data))
    (hkeep : ∀ {s : PayloadSource} {u : MeshUnit} {p : UnitPayload}, ¬roles.contains u.role = true →
      s.Held graph.weightsStale graph.coresStale u p → s.Held weightsStale coresStale u p) :
    ∃ payloads updates,
      (pushRegions graph region roles content >>= fun _ => modifyBuilt change) n =
        .ok () (n.withPayloads payloads updates (change graph)) ∧
      (n.withPayloads payloads updates (change graph)).Sound := by
  have hloaded := hn.loaded hended hbuilt
  obtain ⟨examples, payload, hexamples, hpayloads, hheld⟩ := hloaded.held
  have hs := source_sound hn.topology hn.filled hloaded.compile_eq hloaded.routed examples
  have hsource := payloadSource_eq hexamples graph.compiled graph.routing
  have hlisted {u : MeshUnit} (hu : u ∈ graph.compiled.graph.units.toList)
      (hrole : roles.contains u.role = true) := hwrite hs (Array.mem_toList_iff.1 hu) hrole (hheld u hu)
  obtain ⟨later, updates, hwritten, hkept, hpush⟩ := pushRegions_ok hs rfl hsource (hn.running hended)
    hpayloads (fun u hu => (hheld u hu).unit_eq) region roles content
    (fun u hu hrole => (hlisted hu hrole).1)
    (fun u hu hrole => (hlisted hu hrole).2.imp fun _ h => h.1)
  refine ⟨graph.compiled.graph.units.toList.map later, updates, ?_, ?_⟩
  · rw [Step.bind_ok hpush]
    apply modifyBuilt_ok
    exact hbuilt
  · rw [hchange]
    refine hn.withPayloads
      ⟨hloaded.compile_eq, hloaded.routed, .inl hread, examples, later, hexamples, rfl, ?_⟩
    intro u hu
    by_cases hrole : roles.contains u.role = true
    · obtain ⟨data, hdata, hlater⟩ := hwritten u hu hrole
      obtain ⟨_, other, hother, hnew⟩ := hlisted hu hrole
      cases hdata.symm.trans hother
      rw [hlater]
      exact hnew
    · rw [hkept u hrole]
      exact hkeep hrole (hheld u hu)

theorem pushWeights_ok : ∃ payloads updates,
    pushWeights graph n = .ok () (n.withPayloads payloads updates { graph with weightsStale := false }) ∧
    (n.withPayloads payloads updates { graph with weightsStale := false }).Sound := by
  have hweight (u : MeshUnit) : [UnitRole.weight].contains u.role = true ↔ u.role = .weight := by simp
  refine hn.push_ok hended hread hbuilt .weights [.weight] PayloadSource.weightsRegion
    (fun graph => { graph with weightsStale := false }) rfl ?_ ?_
  · intro s u p hs hu hlisted hheld
    have hrole := (hweight u).1 hlisted
    obtain ⟨own, hown⟩ := hs.exists_ownRegions hu
    obtain ⟨data, hdata, _⟩ := (PayloadSource.ownRegions_of_weight hrole).1 hown
    exact ⟨hheld.hasRegion_weights hrole, data, hdata, hheld.setWeights hrole hdata⟩
  · intro s u p hlisted hheld
    exact hheld.of_not_weight fun hrole => hlisted ((hweight u).2 hrole)

theorem pushCores_ok : ∃ payloads updates,
    pushCores graph n = .ok () (n.withPayloads payloads updates { graph with coresStale := false }) ∧
    (n.withPayloads payloads updates { graph with coresStale := false }).Sound := by
  refine hn.push_ok hended hread hbuilt .core [.weight, .threshold] PayloadSource.coreRegion
    (fun graph => { graph with coresStale := false }) rfl ?_ ?_
  · intro s u p hs hu _ hheld
    obtain ⟨data, hdata⟩ := hs.exists_coreRegion hu
    exact ⟨hheld.hasRegion_core, data, hdata, hheld.setCore hdata⟩
  · intro s u p hlisted hheld
    apply hheld.of_sum_or_input
    cases hrole : u.role with
    | sum => exact .inl rfl
    | input => exact .inr rfl
    | weight | threshold =>
      rw [hrole] at hlisted
      exact absurd rfl hlisted

omit hread in
/-- Once no region is stale, writing the stage is all that is left to do. -/
theorem pushStage_ok (hweights : graph.weightsStale = false) (hcores : graph.coresStale = false)
    (stage : StageDescriptor) : ∃ payloads updates,
    pushStage graph stage n = .ok () (n.withPayloads payloads updates graph) ∧
    (n.withPayloads payloads updates graph).Ready graph stage := by
  have hloaded := hn.loaded hended hbuilt
  obtain ⟨examples, payload, hexamples, hpayloads, hheld⟩ := hloaded.held
  have hs := source_sound hn.topology hn.filled hloaded.compile_eq hloaded.routed examples
  have hids : (graph.compiled.graph.units.toList.map (·.id)).Nodup := hs.nodup_ids
  rw [hweights, hcores] at hheld
  have hstep : ∀ u ∈ graph.compiled.graph.units.toList, ∀ n : Network Loopback,
      onService (PlacementService.updateRegion u.id .stage stage.bytes) n =
        onService (PlacementService.updateRegion u.id .stage ((fun _ => stage.bytes) u)) n := fun _ _ _ => rfl
  obtain ⟨updates, hrun⟩ := forM_updateRegion hids _ (List.Nodup.of_map _ hids) (fun u hu => hu) hstep
    (hn.running hended) hpayloads (fun u hu => (hheld u hu).unit_eq)
    (fun u hu => (hheld u hu).hasRegion_stage)
  refine ⟨graph.compiled.graph.units.toList.map
    (written .stage (fun _ => stage.bytes) graph.compiled.graph.units.toList payload), updates, ?_, rfl,
    hn.running hended, hloaded.compile_eq, hloaded.routed, examples, _, hexamples, rfl, ?_⟩
  · unfold pushStage
    rw [hrun, Network.withPayloads, ← hbuilt]
  · intro u hu
    rw [written_of_mem hu]
    exact (hheld u hu).build_eq stage

end Sound

end Network

end PerceptronMesh

import PerceptronMesh.Proofs.Payload.Core

/-!
Payloads that units hold between two stages. Weights and parameters may have changed since
a unit got its payload, and then its Weights region or its Core region is stale; all other
regions, but for the stage, are those that would be built now. Writing the stale regions
and the stage again gives the payload that a full build gives.
-/

namespace PerceptronMesh

namespace PayloadSource

/-- A payload a unit may hold, by what is stale among the units of the graph. Weights are
held by Weight units, and parameters by Weight and Threshold units. -/
inductive Held (s : PayloadSource) (weightsStale coresStale : Bool) (u : MeshUnit) : UnitPayload → Prop
  | intro {core : List UInt8} {own : List (Region × List UInt8)} {keys : RoutingKeys}
      (stage : StageDescriptor)
      (keys_eq : s.routing.keysFor s.compiled.graph u.id = .ok keys)
      (core_eq : coresStale = false ∨ u.role = .sum ∨ u.role = .input → s.coreRegion u = .ok core)
      (core_length : SumCore.size ≤ core.length)
      (own_eq : weightsStale = false ∨ u.role ≠ .weight → s.ownRegions u = .ok own)
      (own_ordered : OwnOrdered own)
      (own_weights : u.role = .weight → ∃ data, own = [(.weights, data)]) :
      Held s weightsStale coresStale u ⟨u.id, u.role, s.layout core own keys stage⟩

variable {s : PayloadSource} {u : MeshUnit} {p : UnitPayload} {stage : StageDescriptor}
  {weightsStale coresStale : Bool}

/-- A payload that was built may be held whatever is marked. -/
theorem held_of_build (h : s.build u stage = .ok p) : s.Held weightsStale coresStale u p := by
  obtain ⟨core, own, keys, hcore, hown, hkeys, rfl⟩ := build_eq_ok_iff.1 h
  refine .intro stage hkeys (fun _ => hcore) (length_coreRegion hcore) (fun _ => hown)
    (ownOrdered_of_ownRegions hown) ?_
  intro hrole
  obtain ⟨data, _, hdata⟩ := (ownRegions_of_weight hrole).1 hown
  exact ⟨data, hdata⟩

/-- Units hold the stage they were built for. -/
theorem stage_of_build (h : s.build u stage = .ok p) : p.region? .stage = some stage.bytes := by
  obtain ⟨core, own, keys, _, hown, _, rfl⟩ := build_eq_ok_iff.1 h
  exact stage_layout (ownOrdered_of_ownRegions hown)

namespace Held

theorem unit_eq (h : s.Held weightsStale coresStale u p) : p.unit = u.id := by
  cases h
  rfl

theorem hasRegion_stage (h : s.Held weightsStale coresStale u p) : p.hasRegion .stage = true := by
  obtain ⟨stage, _, _, _, _, hordered, _⟩ := h
  rw [UnitPayload.hasRegion, stage_layout hordered]
  rfl

/-- Every unit has a Core region, and it is long enough to be read. -/
theorem exists_core (h : s.Held weightsStale coresStale u p) :
    ∃ core, p.region? .core = some core ∧ SumCore.size ≤ core.length := by
  obtain ⟨stage, _, _, hlength, _, _, _⟩ := h
  exact ⟨_, rfl, hlength⟩

theorem hasRegion_core (h : s.Held weightsStale coresStale u p) : p.hasRegion .core = true := by
  obtain ⟨core, hcore, _⟩ := h.exists_core
  rw [UnitPayload.hasRegion, hcore]
  rfl

theorem hasRegion_weights (h : s.Held weightsStale coresStale u p) (hrole : u.role = .weight) :
    p.hasRegion .weights = true := by
  obtain ⟨stage, _, _, _, _, _, hweights⟩ := h
  obtain ⟨data, rfl⟩ := hweights hrole
  rfl

/-- With its stage written, a payload without stale regions is the one that is built. -/
theorem build_eq (h : s.Held false false u p) (stage : StageDescriptor) :
    s.build u stage = .ok (p.setRegion .stage stage.bytes) := by
  obtain ⟨old, hkeys, hcore, _, hown, hordered, _⟩ := h
  rw [setStage_layout hordered]
  exact build_eq_ok_iff.2 ⟨_, _, _, hcore (.inl rfl), hown (.inl rfl), hkeys, rfl⟩

/-- Only Weight units have weights to be written. -/
theorem of_not_weight (h : s.Held weightsStale coresStale u p) (hrole : u.role ≠ .weight) :
    s.Held false coresStale u p := by
  obtain ⟨stage, hkeys, hcore, hlength, hown, hordered, hweights⟩ := h
  exact .intro stage hkeys hcore hlength (fun _ => hown (.inr hrole)) hordered hweights

theorem setWeights (h : s.Held weightsStale coresStale u p) (hrole : u.role = .weight) {data : List UInt8}
    (hdata : s.weightsRegion u = .ok data) : s.Held false coresStale u (p.setRegion .weights data) := by
  obtain ⟨stage, hkeys, hcore, hlength, _, hordered, hweights⟩ := h
  obtain ⟨old, rfl⟩ := hweights hrole
  have hown : s.ownRegions u = .ok [(.weights, data)] := (ownRegions_of_weight hrole).2 ⟨data, hdata, rfl⟩
  rw [setWeights_layout]
  exact .intro stage hkeys hcore hlength (fun _ => hown) (ownOrdered_of_ownRegions hown)
    fun _ => ⟨data, rfl⟩

/-- The Core regions of Sum and Input units hold no parameters. -/
theorem of_sum_or_input (h : s.Held weightsStale coresStale u p) (hrole : u.role = .sum ∨ u.role = .input) :
    s.Held weightsStale false u p := by
  obtain ⟨stage, hkeys, hcore, hlength, hown, hordered, hweights⟩ := h
  exact .intro stage hkeys (fun _ => hcore (.inr hrole)) hlength hown hordered hweights

theorem setCore (h : s.Held weightsStale coresStale u p) {core : List UInt8}
    (hcore : s.coreRegion u = .ok core) : s.Held weightsStale false u (p.setRegion .core core) := by
  obtain ⟨stage, hkeys, _, _, hown, hordered, hweights⟩ := h
  rw [setCore_layout]
  exact .intro stage hkeys (fun _ => hcore) (length_coreRegion hcore) hown hordered hweights

/-- A new weights file makes weights stale before it is read. -/
theorem markWeights (h : s.Held weightsStale coresStale u p) : s.Held true coresStale u p := by
  obtain ⟨stage, hkeys, hcore, hlength, hown, hordered, hweights⟩ := h
  exact .intro stage hkeys hcore hlength (fun hrole => hown (.inr (hrole.resolve_left (by decide))))
    hordered hweights

theorem withWeights (h : s.Held true coresStale u p) (values : Array Numeric.Binary64) :
    { s with topology := s.topology.withWeights values }.Held true coresStale u p := by
  have hsame := Topology.withoutWeights_withWeights (t := s.topology) values
  obtain ⟨stage, hkeys, hcore, hlength, hown, hordered, hweights⟩ := h
  refine .intro (s := { s with topology := s.topology.withWeights values }) stage hkeys ?_ hlength ?_
    hordered hweights
  · intro hrole
    rw [coreRegion_of_withoutWeights hsame]
    exact hcore hrole
  · intro hrole
    have hother := hrole.resolve_left (by decide)
    rw [ownRegions_of_withoutWeights hsame hother]
    exact hown (.inr hother)

/-- Parameters of a group make Core regions stale and nothing else. -/
theorem setGroupParams (h : s.Held weightsStale coresStale u p) (id : GroupId) (params : GroupParams) :
    { s with topology := s.topology.modifyGroup id fun g => { g with params } }.Held
      weightsStale true u p := by
  have hsame := s.topology.withoutParams_setParams id params
  obtain ⟨stage, hkeys, hcore, hlength, hown, hordered, hweights⟩ := h
  refine .intro (s := { s with topology := s.topology.modifyGroup id fun g => { g with params } }) stage
    hkeys ?_ hlength ?_ hordered hweights
  · intro hrole
    have hother := hrole.resolve_left (by decide)
    rw [coreRegion_of_withoutParams hsame hother]
    exact hcore (.inr hother)
  · intro hrole
    rw [ownRegions_of_withoutParams hsame]
    exact hown hrole

/-- So do parameters of the network. -/
theorem apply (h : s.Held weightsStale coresStale u p) (params : NetworkParams) :
    { s with settings := s.settings.apply params }.Held weightsStale true u p := by
  obtain ⟨stage, hkeys, hcore, hlength, hown, hordered, hweights⟩ := h
  refine .intro (s := { s with settings := s.settings.apply params }) stage hkeys ?_ hlength hown
    hordered hweights
  intro hrole
  have hother := hrole.resolve_left (by decide)
  rw [coreRegion_of_apply params hother]
  exact hcore (.inr hother)

/-- Parameters that are equal as numbers make nothing stale. -/
theorem apply_of_not_differ (h : s.Held weightsStale coresStale u p) (params : NetworkParams)
    (hsame : (s.settings.apply params).unitParamsDiffer s.settings = false) :
    { s with settings := s.settings.apply params }.Held weightsStale coresStale u p := by
  obtain ⟨stage, hkeys, hcore, hlength, hown, hordered, hweights⟩ := h
  refine .intro (s := { s with settings := s.settings.apply params }) stage hkeys ?_ hlength hown
    hordered hweights
  intro hrole
  rw [coreRegion_of_not_differ params hsame]
  exact hcore hrole

end Held

theorem unit_of_build (h : s.build u stage = .ok p) : p.unit = u.id := by
  have hheld : s.Held false false u p := held_of_build h
  exact hheld.unit_eq

theorem map_unit_of_build {units : List MeshUnit} {payload : MeshUnit → UnitPayload}
    (h : ∀ u ∈ units, s.build u stage = .ok (payload u)) :
    (units.map payload).map (·.unit) = units.map (·.id) := by
  rw [List.map_map]
  exact List.map_congr_left fun u hu => unit_of_build (h u hu)

theorem exists_core_of_build (h : s.build u stage = .ok p) :
    ∃ core, p.region? .core = some core ∧ SumCore.size ≤ core.length := by
  have hheld : s.Held false false u p := held_of_build h
  exact hheld.exists_core

end PayloadSource

end PerceptronMesh

import PerceptronMesh.Payload.Build

/-!
Where the regions of a payload stand. A payload is built region by region by increasing
code, so that what is built is the list of its regions, and writing a region of a loaded
unit changes that region in place.
-/

namespace PerceptronMesh

namespace UnitPayload

/-- A region goes behind all with a smaller code. -/
theorem insertRegion_append {region : Region} {data : List UInt8}
    {before after : List (Region × List UInt8)}
    (h : ∀ entry ∈ before, entry.1.code < region.code) :
    insertRegion region data (before ++ after) = before ++ insertRegion region data after := by
  induction before with
  | nil => rfl
  | cons first rest ih =>
    have hlt := h first List.mem_cons_self
    have hne : region ≠ first.1 := by
      rintro rfl
      exact Nat.lt_irrefl _ hlt
    rw [List.cons_append, insertRegion, if_neg hne, if_neg (Nat.not_lt.2 (Nat.le_of_lt hlt)),
      ih fun entry hentry => h entry (List.mem_cons_of_mem _ hentry), List.cons_append]

/-- Regions that come in order, one after another. -/
theorem foldl_setRegion {unit : UnitId} {role : UnitRole} {done regions : List (Region × List UInt8)}
    (h : ((done ++ regions).map (·.1.code)).Pairwise (· < ·)) :
    regions.foldl (fun (p : UnitPayload) (region, data) => p.setRegion region data) ⟨unit, role, done⟩ =
      ⟨unit, role, done ++ regions⟩ := by
  induction regions generalizing done with
  | nil => simp
  | cons entry rest ih =>
    have hlt : ∀ other ∈ done, other.1.code < entry.1.code := by
      rw [List.map_append, List.pairwise_append] at h
      intro other hother
      exact h.2.2 _ (List.mem_map_of_mem hother) _ (List.mem_map_of_mem List.mem_cons_self)
    have hput : insertRegion entry.1 entry.2 done = done ++ [entry] := by
      rw [← List.append_nil done, insertRegion_append hlt, List.append_nil]
      rfl
    have hrest : (((done ++ [entry]) ++ rest).map (·.1.code)).Pairwise (· < ·) := by
      simpa using h
    have hstep : (⟨unit, role, done⟩ : UnitPayload).setRegion entry.1 entry.2 =
        ⟨unit, role, done ++ [entry]⟩ := by rw [setRegion, hput]
    rw [List.foldl_cons]
    show List.foldl _ ((⟨unit, role, done⟩ : UnitPayload).setRegion entry.1 entry.2) rest = _
    rw [hstep, ih hrest, List.append_assoc, List.singleton_append]

theorem ofRegions_eq {unit : UnitId} {role : UnitRole} {regions : List (Region × List UInt8)}
    (h : (regions.map (·.1.code)).Pairwise (· < ·)) :
    ofRegions unit role regions = ⟨unit, role, regions⟩ :=
  foldl_setRegion h

variable {region other : Region}

theorem lookup_insertRegion (region : Region) (data : List UInt8) (regions : List (Region × List UInt8)) :
    (insertRegion region data regions).lookup region = some data := by
  induction regions with
  | nil => rw [insertRegion, List.lookup_cons, beq_self_eq_true]
  | cons first rest ih =>
    unfold insertRegion
    split
    · rw [List.lookup_cons, beq_self_eq_true]
    · split
      · rw [List.lookup_cons, beq_self_eq_true]
      · rw [List.lookup_cons, beq_false_of_ne ‹region ≠ first.1›, ih]

theorem lookup_insertRegion_of_ne (h : other ≠ region) (data : List UInt8) (regions : List (Region × List UInt8)) :
    (insertRegion region data regions).lookup other = regions.lookup other := by
  induction regions with
  | nil => rw [insertRegion, List.lookup_cons, beq_false_of_ne h]
  | cons first rest ih =>
    unfold insertRegion
    split
    case isTrue hsame => rw [List.lookup_cons, List.lookup_cons, ← hsame, beq_false_of_ne h]
    case isFalse =>
      split
      · rw [List.lookup_cons, beq_false_of_ne h]
      · rw [List.lookup_cons, List.lookup_cons, ih]

theorem region?_setRegion (p : UnitPayload) (region : Region) (data : List UInt8) :
    (p.setRegion region data).region? region = some data :=
  lookup_insertRegion region data p.regions

theorem region?_setRegion_of_ne (p : UnitPayload) (h : other ≠ region) (data : List UInt8) :
    (p.setRegion region data).region? other = p.region? other :=
  lookup_insertRegion_of_ne h data p.regions

end UnitPayload

namespace PayloadSource

variable {s : PayloadSource} {g : Group} {u : MeshUnit}

/-- The regions of a unit, from the ones that are its own and those that all units have. -/
def layout (s : PayloadSource) (core : List UInt8) (own : List (Region × List UInt8)) (keys : RoutingKeys)
    (stage : StageDescriptor) : List (Region × List UInt8) :=
  [(.network, s.networkRecord.bytes), (.core, core), (.exampleSet, s.examples.set.bytes),
    (.examples, s.examples.examples.flatMap ExampleRecord.bytes)] ++ own ++
  [(.routing, keys.bytes), (.stage, stage.bytes)]

/-- A role's own regions stand in order between the regions of all units. -/
structure OwnOrdered (own : List (Region × List UInt8)) : Prop where
  ordered : (own.map (·.1.code)).Pairwise (· < ·)
  after : ∀ entry ∈ own, Region.examples.code < entry.1.code
  before : ∀ entry ∈ own, entry.1.code < Region.routing.code

theorem optionalRegion_eq_ok {region : Region} {values : Array UnitValue}
    {own : List (Region × List UInt8)} (h : optionalRegion region g u values = .ok own) :
    own = [] ∨ ∃ data, own = [(region, data)] := by
  unfold optionalRegion at h
  split at h
  · cases h
    exact .inl rfl
  · cases hvalues : valuesRegion g u values with
    | error e =>
      rw [hvalues] at h
      cases h
    | ok data =>
      rw [hvalues] at h
      cases h
      exact .inr ⟨data, rfl⟩

/-- The regions that each role adds. -/
theorem roleRegions_cases {own : List (Region × List UInt8)} (h : s.roleRegions g u = .ok own) :
    (u.role = .weight ∧ ∃ data, s.weightsRegion u = .ok data ∧ own = [(.weights, data)]) ∨
    (u.role = .sum ∧ own = []) ∨
    (u.role = .input ∧ ∃ inputs, optionalRegion .inputs g u g.inputs = .ok inputs ∧
      own = (.events, s.eventsRegion) :: inputs) ∨
    (u.role = .threshold ∧ ∃ inputs targets, optionalRegion .inputs g u g.inputs = .ok inputs ∧
      optionalRegion .targets g u g.targets = .ok targets ∧
      own = (.events, s.eventsRegion) :: inputs ++ targets) := by
  unfold roleRegions at h
  cases hrole : u.role with
  | weight =>
    rw [hrole] at h
    obtain ⟨data, hdata, h⟩ := bind_eq_ok_iff.1 h
    cases h
    exact .inl ⟨rfl, data, hdata, rfl⟩
  | sum =>
    rw [hrole] at h
    cases h
    exact .inr (.inl ⟨rfl, rfl⟩)
  | input =>
    rw [hrole] at h
    obtain ⟨inputs, hinputs, h⟩ := bind_eq_ok_iff.1 h
    cases h
    exact .inr (.inr (.inl ⟨rfl, inputs, hinputs, rfl⟩))
  | threshold =>
    rw [hrole] at h
    obtain ⟨inputs, hinputs, h⟩ := bind_eq_ok_iff.1 h
    obtain ⟨targets, htargets, h⟩ := bind_eq_ok_iff.1 h
    cases h
    exact .inr (.inr (.inr ⟨rfl, inputs, targets, hinputs, htargets, rfl⟩))

theorem ownOrdered_of_roleRegions {own : List (Region × List UInt8)} (h : s.roleRegions g u = .ok own) :
    OwnOrdered own := by
  obtain ⟨_, data, _, rfl⟩ | ⟨_, rfl⟩ | ⟨_, inputs, hinputs, rfl⟩ |
      ⟨_, inputs, targets, hinputs, htargets, rfl⟩ := roleRegions_cases h
  · constructor <;> simp [Region.code]
  · constructor <;> simp
  · obtain rfl | ⟨data, rfl⟩ := optionalRegion_eq_ok hinputs
    all_goals constructor <;> simp [Region.code]
  · obtain rfl | ⟨data, rfl⟩ := optionalRegion_eq_ok hinputs
    all_goals
      obtain rfl | ⟨row, rfl⟩ := optionalRegion_eq_ok htargets
      all_goals constructor <;> simp [Region.code]

theorem layout_ordered {core : List UInt8} {own : List (Region × List UInt8)} {keys : RoutingKeys}
    {stage : StageDescriptor} (h : OwnOrdered own) :
    ((s.layout core own keys stage).map (·.1.code)).Pairwise (· < ·) := by
  have hafter : ∀ code ∈ own.map (·.1.code), 4 < code := by
    intro code hcode
    obtain ⟨entry, hentry, rfl⟩ := List.mem_map.1 hcode
    exact h.after entry hentry
  have hbefore : ∀ code ∈ own.map (·.1.code), code < 9 := by
    intro code hcode
    obtain ⟨entry, hentry, rfl⟩ := List.mem_map.1 hcode
    exact h.before entry hentry
  simp only [layout, List.map_append, List.map_cons, List.map_nil, Region.code, List.append_assoc]
  refine List.pairwise_append.2 ⟨by decide, List.pairwise_append.2 ⟨h.ordered, by decide, ?_⟩, ?_⟩
  · intro code hcode last hlast
    have hlt := hbefore code hcode
    simp only [List.mem_cons, List.not_mem_nil, or_false] at hlast
    omega
  · intro first hfirst code hcode
    have hle : first ≤ 4 := by
      simp only [List.mem_cons, List.not_mem_nil, or_false] at hfirst
      omega
    rcases List.mem_append.1 hcode with hown | hlast
    · exact Nat.lt_of_le_of_lt hle (hafter code hown)
    · simp only [List.mem_cons, List.not_mem_nil, or_false] at hlast
      omega

/-- The regions that a unit has for its role, read from its group. -/
def ownRegions (s : PayloadSource) (u : MeshUnit) : Result (List (Region × List UInt8)) := do
  let g ← s.topology.group u.group
  s.roleRegions g u

theorem ownOrdered_of_ownRegions {own : List (Region × List UInt8)} (h : s.ownRegions u = .ok own) :
    OwnOrdered own := by
  obtain ⟨g, _, hown⟩ := bind_eq_ok_iff.1 h
  exact ownOrdered_of_roleRegions hown

/-- A Weight unit's own region holds its weights. -/
theorem ownRegions_of_weight (hrole : u.role = .weight) {own : List (Region × List UInt8)} :
    s.ownRegions u = .ok own ↔ ∃ data, s.weightsRegion u = .ok data ∧ own = [(.weights, data)] := by
  unfold ownRegions
  rw [bind_eq_ok_iff]
  constructor
  · rintro ⟨g, _, hown⟩
    obtain ⟨_, h⟩ | ⟨h, _⟩ | ⟨h, _⟩ | ⟨h, _⟩ := roleRegions_cases hown
    · exact h
    all_goals
      rw [hrole] at h
      cases h
  · rintro ⟨data, hdata, rfl⟩
    obtain ⟨place, _, hregion⟩ := bind_eq_ok_iff.1 hdata
    obtain ⟨g, hg, _⟩ := bind_eq_ok_iff.1 hregion
    refine ⟨g, hg, ?_⟩
    unfold roleRegions
    rw [hrole, hdata]
    rfl

/-- What a payload is built of. -/
theorem build_eq_ok_iff {stage : StageDescriptor} {p : UnitPayload} :
    s.build u stage = .ok p ↔ ∃ core own keys, s.coreRegion u = .ok core ∧ s.ownRegions u = .ok own ∧
      s.routing.keysFor s.compiled.graph u.id = .ok keys ∧
      p = ⟨u.id, u.role, s.layout core own keys stage⟩ := by
  unfold build ownRegions
  simp only [bind_eq_ok_iff]
  constructor
  · rintro ⟨g, hg, core, hcore, own, hown, keys, hkeys, h⟩
    cases h
    exact ⟨core, own, keys, hcore, ⟨g, hg, hown⟩, hkeys,
      UnitPayload.ofRegions_eq (layout_ordered (ownOrdered_of_roleRegions hown))⟩
  · rintro ⟨core, own, keys, hcore, ⟨g, hg, hown⟩, hkeys, rfl⟩
    refine ⟨g, hg, core, hcore, own, hown, keys, hkeys, ?_⟩
    exact congrArg Except.ok (UnitPayload.ofRegions_eq (layout_ordered (ownOrdered_of_roleRegions hown)))

/-- Every payload of a unit holds the unit's Core region. -/
theorem core_of_build {core : List UInt8} (hcore : s.coreRegion u = .ok core) {stage : StageDescriptor}
    {p : UnitPayload} (h : s.build u stage = .ok p) : p.region? .core = some core := by
  obtain ⟨other, _, _, hother, _, _, rfl⟩ := build_eq_ok_iff.1 h
  cases hother.symm.trans hcore
  rfl

theorem setCore_layout {unit : UnitId} {role : UnitRole} {old core : List UInt8}
    {own : List (Region × List UInt8)} {keys : RoutingKeys} {stage : StageDescriptor} :
    (⟨unit, role, s.layout old own keys stage⟩ : UnitPayload).setRegion .core core =
      ⟨unit, role, s.layout core own keys stage⟩ := rfl

theorem setWeights_layout {unit : UnitId} {role : UnitRole} {core old data : List UInt8}
    {keys : RoutingKeys} {stage : StageDescriptor} :
    (⟨unit, role, s.layout core [(.weights, old)] keys stage⟩ : UnitPayload).setRegion .weights data =
      ⟨unit, role, s.layout core [(.weights, data)] keys stage⟩ := rfl

theorem setStage_layout {unit : UnitId} {role : UnitRole} {core : List UInt8}
    {own : List (Region × List UInt8)} {keys : RoutingKeys} {old stage : StageDescriptor}
    (h : OwnOrdered own) :
    (⟨unit, role, s.layout core own keys old⟩ : UnitPayload).setRegion .stage stage.bytes =
      ⟨unit, role, s.layout core own keys stage⟩ := by
  have hown : ∀ entry ∈ own, entry.1.code < Region.stage.code :=
    fun entry hentry => Nat.lt_succ_of_lt (h.before entry hentry)
  have hput : UnitPayload.insertRegion .stage stage.bytes
      (own ++ [(.routing, keys.bytes), (.stage, old.bytes)]) =
        own ++ [(.routing, keys.bytes), (.stage, stage.bytes)] := UnitPayload.insertRegion_append hown
  simp only [UnitPayload.setRegion, layout, List.cons_append, List.nil_append, UnitPayload.insertRegion,
    reduceCtorEq, if_false, Region.code, Nat.reduceLT, hput]

theorem stage_layout {unit : UnitId} {role : UnitRole} {core : List UInt8}
    {own : List (Region × List UInt8)} {keys : RoutingKeys} {stage : StageDescriptor}
    (h : OwnOrdered own) :
    (⟨unit, role, s.layout core own keys stage⟩ : UnitPayload).region? .stage = some stage.bytes := by
  have hown : own.lookup .stage = none := by
    rw [List.lookup_eq_none_iff]
    intro entry hentry
    have hlt := h.before entry hentry
    rw [bne_iff_ne]
    intro hsame
    rw [← hsame] at hlt
    exact absurd hlt (by decide)
  simp only [UnitPayload.region?, layout, List.lookup_append, hown]
  rfl

end PayloadSource

end PerceptronMesh

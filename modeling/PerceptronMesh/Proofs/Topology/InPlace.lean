import PerceptronMesh.Proofs.Placement.Step
import PerceptronMesh.Proofs.Topology.Growth

/-!
Adding groups and links, written out as the calls change a topology, one change after another, so
that a fault may come between two changes. None does: each call looks for its faults before it
changes anything, and the link from the bias to a group that was just added is never refused.
-/

namespace PerceptronMesh

/-- A change that is made at once, or not at all. -/
def Step.atOnce {σ α : Type} (change : σ → Result (α × σ)) : Step σ α := fun before =>
  match change before with
  | .ok (a, later) => .ok a later
  | .error e => .error e before

namespace Step

variable {σ α : Type} {change : σ → Result (α × σ)} {before later : σ} {a : α} {e : Error}

theorem atOnce_ok (h : change before = .ok (a, later)) : atOnce change before = .ok a later := by
  rw [atOnce, h]

theorem atOnce_error (h : change before = .error e) : atOnce change before = .error e before := by
  rw [atOnce, h]

end Step

namespace Topology

/-- The label of a new group, its number if none is given. -/
def newLabel (t : Topology) (label : Option String) : String := label.getD s!"g{t.groups.length}"

/-- What a new group is refused for. -/
inductive RefusesGroup (t : Topology) (units : Nat) (roles : Roles) (inputFunctions : Option (List InputFunction))
    (outputFunctions : Option (List OutputFunction)) (label : Option String) : ConfigurationError → Prop
  | labelInUse (htaken : t.groupByLabel? (t.newLabel label) ≠ none) :
      RefusesGroup t units roles inputFunctions outputFunctions label (.labelInUse (t.newLabel label))
  | noUnits (hunits : units = 0) :
      RefusesGroup t units roles inputFunctions outputFunctions label (.noUnits (t.newLabel label))
  | noRole (hroles : roles.isEmpty = true) :
      RefusesGroup t units roles inputFunctions outputFunctions label (.noRole (t.newLabel label))
  | inputFunctions {functions : List InputFunction} (hgiven : inputFunctions = some functions)
      (hlong : maxInputFunctions < functions.length) :
      RefusesGroup t units roles inputFunctions outputFunctions label
        (.tooManyFunctions (t.newLabel label) functions.length .input maxInputFunctions)
  | outputFunctions {functions : List OutputFunction} (hgiven : outputFunctions = some functions)
      (hlong : maxOutputFunctions < functions.length) :
      RefusesGroup t units roles inputFunctions outputFunctions label
        (.tooManyFunctions (t.newLabel label) functions.length .output maxOutputFunctions)

/-- What a new link is refused for. -/
inductive RefusesLink (t : Topology) (source destination : GroupId) : TopologyError → Prop
  | noSource (hsource : t.group? source = none) : RefusesLink t source destination (.noSource source)
  | noDestination (hdestination : t.group? destination = none) :
      RefusesLink t source destination (.noDestination destination)
  | linkDeclared {g target : Group} (hsource : t.group? source = some g)
      (htarget : t.group? destination = some target) (hlinked : source ∈ target.linksFrom) :
      RefusesLink t source destination (.linkDeclared g.label target.label)

/-- Adds a group, and then its link. -/
def addGroupInPlace (units : Nat) (roles : Roles) (inputFunctions : Option (List InputFunction))
    (outputFunctions : Option (List OutputFunction)) (label : Option String) : Step Topology GroupId := do
  let t ← get
  let id := t.groups.length
  let label := label.getD s!"g{id}"
  if (t.groupByLabel? label).isSome then throw (.configuration (.labelInUse label))
  let block := if roles.output then t.outputChain.length else 0
  let g ← Step.ofResult (Group.make id units roles inputFunctions outputFunctions block
    (roles.output && t.outputChain.isEmpty) label t.maxSubgroupUnits)
  modify fun t => { t with groups := t.groups ++ [g] }
  modify fun t => { t with outputChain := if roles.output then t.outputChain ++ [id] else t.outputChain }
  if roles.output || roles.hidden then
    let _ ← Step.atOnce fun t => t.addLink bias id none
  pure id

variable {t : Topology} {units : Nat} {roles : Roles} {inputFunctions : Option (List InputFunction)}
  {outputFunctions : Option (List OutputFunction)} {label : Option String} {source destination : GroupId} {e : Error}

/-- A group that was just added can be linked from the bias, whatever else there is. -/
theorem exists_addLink_new {before : List Group} {g : Group} (hgroups : t.groups = before ++ [g])
    (hlinks : g.linksFrom = []) : ∃ id linked, t.addLink bias before.length none = .ok (id, linked) := by
  have htarget : t.group? before.length = some g := by
    rw [group?, hgroups]
    simp
  obtain ⟨source, hsource⟩ : ∃ source, t.group? bias = some source := by
    refine ⟨_, List.getElem?_eq_getElem ?_⟩
    rw [hgroups]
    simp [bias]
  unfold addLink
  rw [hsource, htarget]
  simp [Group.isLinkedFrom, hlinks]

theorem refusesLink_of_addLink (h : t.addLink source destination label = .error e) :
    ∃ cause, e = .topology cause ∧ t.RefusesLink source destination cause := by
  unfold addLink at h
  cases hsource : t.group? source with
  | none =>
    rw [hsource] at h
    cases h
    exact ⟨_, rfl, .noSource hsource⟩
  | some g =>
    cases htarget : t.group? destination with
    | none =>
      rw [hsource, htarget] at h
      cases h
      exact ⟨_, rfl, .noDestination htarget⟩
    | some target =>
      rw [hsource, htarget] at h
      dsimp only at h
      by_cases hlinked : target.isLinkedFrom source
      · rw [if_pos hlinked] at h
        cases h
        exact ⟨_, rfl, .linkDeclared hsource htarget (by simpa [Group.isLinkedFrom] using hlinked)⟩
      · rw [if_neg hlinked] at h
        cases h

/-- A group that cannot be made is refused for what is given for it. -/
theorem refusesGroup_of_make {block : Nat} {isFirst : Bool} (hcap : 0 < t.maxSubgroupUnits)
    (h : Group.make t.groups.length units roles inputFunctions outputFunctions block isFirst (t.newLabel label)
      t.maxSubgroupUnits = .error e) :
    ∃ cause, e = .configuration cause ∧ t.RefusesGroup units roles inputFunctions outputFunctions label cause := by
  unfold Group.make at h
  dsimp only at h
  by_cases hunits : units = 0
  · rw [if_pos hunits] at h
    cases h
    exact ⟨_, rfl, .noUnits hunits⟩
  by_cases hroles : roles.isEmpty
  · rw [if_neg hunits, if_pos hroles] at h
    cases h
    exact ⟨_, rfl, .noRole hroles⟩
  rw [if_neg hunits, if_neg hroles, if_neg (Nat.pos_iff_ne_zero.1 hcap)] at h
  split at h
  · rename_i hlong
    cases inputFunctions with
    | none => exact absurd hlong (Nat.not_lt_zero _)
    | some functions =>
      cases h
      exact ⟨_, rfl, .inputFunctions rfl hlong⟩
  split at h
  · rename_i hlong
    cases outputFunctions with
    | none => exact absurd hlong (Nat.not_lt_zero _)
    | some functions =>
      cases h
      exact ⟨_, rfl, .outputFunctions rfl hlong⟩
  · cases h

section AddGroup

variable (t units roles inputFunctions outputFunctions label)

/-- A group is refused for its label or as a group of its own, and in both cases before the
topology changes. -/
theorem addGroupInPlace_cases :
    (∃ e, addGroupInPlace units roles inputFunctions outputFunctions label t = .error e t ∧
        t.addGroup units roles inputFunctions outputFunctions label = .error e ∧
        (t.groupByLabel? (t.newLabel label) ≠ none ∧ e = .configuration (.labelInUse (t.newLabel label)) ∨
          ∃ block isFirst, Group.make t.groups.length units roles inputFunctions outputFunctions block isFirst
            (t.newLabel label) t.maxSubgroupUnits = .error e)) ∨
      ∃ id grown, addGroupInPlace units roles inputFunctions outputFunctions label t = .ok id grown ∧
        t.addGroup units roles inputFunctions outputFunctions label = .ok (id, grown) := by
  unfold addGroupInPlace addGroup
  rw [Step.bind_ok (x := get) rfl]
  dsimp only
  by_cases hlabel : (t.groupByLabel? (label.getD s!"g{t.groups.length}")).isSome
  · rw [if_pos hlabel, if_pos hlabel]
    exact .inl ⟨_, rfl, rfl, .inl ⟨Option.isSome_iff_ne_none.1 hlabel, rfl⟩⟩
  rw [if_neg hlabel, if_neg hlabel]
  cases hmake : Group.make t.groups.length units roles inputFunctions outputFunctions
      (if roles.output then t.outputChain.length else 0) (roles.output && t.outputChain.isEmpty)
      (label.getD s!"g{t.groups.length}") t.maxSubgroupUnits with
  | error e => exact .inl ⟨e, rfl, rfl, .inr ⟨_, _, hmake⟩⟩
  | ok g =>
    obtain ⟨id, linked, hlink⟩ := exists_addLink_new (t := { t with
        groups := t.groups ++ [g]
        outputChain := if roles.output then t.outputChain ++ [t.groups.length] else t.outputChain })
      rfl (Group.make_eq_ok hmake).2.2.1.linksFrom_eq
    rw [Step.bind_ok (Step.ofResult_ok rfl), Step.bind_ok (x := modify _) rfl, Step.bind_ok (x := modify _) rfl]
    by_cases hlinked : roles.output || roles.hidden
    · rw [if_pos hlinked]
      refine .inr ⟨_, linked, Step.bind_ok (Step.atOnce_ok hlink), ?_⟩
      refine bind_eq_ok_iff.2 ⟨g, rfl, ?_⟩
      rw [if_pos hlinked]
      exact bind_eq_ok_iff.2 ⟨(id, linked), hlink, rfl⟩
    · rw [if_neg hlinked]
      refine .inr ⟨_, _, rfl, bind_eq_ok_iff.2 ⟨g, rfl, ?_⟩⟩
      rw [if_neg hlinked]
      rfl

end AddGroup

theorem addGroupInPlace_eq : addGroupInPlace units roles inputFunctions outputFunctions label =
    Step.atOnce fun t => t.addGroup units roles inputFunctions outputFunctions label := by
  funext t
  obtain ⟨e, hplace, hadd, _⟩ | ⟨id, grown, hplace, hadd⟩ :=
    addGroupInPlace_cases t units roles inputFunctions outputFunctions label
  · rw [hplace, Step.atOnce_error hadd]
  · rw [hplace, Step.atOnce_ok hadd]

/-- Records a link with its destination, and then among all links. -/
def addLinkInPlace (source destination : GroupId) (label : Option String) : Step Topology Nat := do
  let t ← get
  match t.group? source, t.group? destination with
  | none, _ => throw (.topology (.noSource source))
  | some _, none => throw (.topology (.noDestination destination))
  | some from_, some target =>
    if target.isLinkedFrom source then throw (.topology (.linkDeclared from_.label target.label))
    let label := label.getD s!"{from_.label}-{target.label}"
    modify fun t => t.modifyGroup destination fun g => { g with linksFrom := g.linksFrom ++ [source] }
    let id := (← get).links.length
    modify fun t => { t with links := t.links ++ [⟨id, source, destination, label⟩] }
    pure id

theorem addLinkInPlace_eq (source destination : GroupId) (label : Option String) :
    addLinkInPlace source destination label = Step.atOnce fun t => t.addLink source destination label := by
  funext t
  unfold addLinkInPlace Step.atOnce addLink
  rw [Step.bind_ok (x := get) rfl]
  cases hsource : t.group? source with
  | none => simp only [hsource]; rfl
  | some from_ =>
    cases htarget : t.group? destination with
    | none => simp only [hsource, htarget]; rfl
    | some target =>
      by_cases hlinked : target.isLinkedFrom source
      · simp only [hsource, htarget, hlinked, if_true]; rfl
      · simp only [hsource, htarget, hlinked]; rfl

end Topology

end PerceptronMesh

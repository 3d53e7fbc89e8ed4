import Mathlib.Algebra.Order.Floor.Div
import Mathlib.Data.List.Pairwise
import PerceptronMesh.Proofs.Partition.Split
import PerceptronMesh.Proofs.Topology.InPlace
import PerceptronMesh.Proofs.Topology.Links
import PerceptronMesh.Proofs.Topology.Outputs

/-!
What holds of a topology after any history of calls that add groups and links, granted or refused.
Groups and links stand at the position that is their identifier, the bias comes first and is the
first predecessor of every group that computes, and the two records of a link agree. A refused call
leaves the topology as it was.
-/

namespace PerceptronMesh

open Numeric

/-- Groups are split into as few subgroups as hold their units, of which only the last may be
smaller than the bound. -/
theorem splitUnits_spec {units cap : Nat} (hunits : 0 < units) (hcap : 0 < cap) :
    (splitUnits units cap).length = units ⌈/⌉ cap ∧ ∃ last, 0 < last ∧ last ≤ cap ∧
      splitUnits units cap = List.replicate (units ⌈/⌉ cap - 1) cap ++ [last] := by
  rw [Nat.ceilDiv_eq_add_pred_div]
  have hstart := Nat.div_mul_le_self (units + cap - 1) cap
  have hend := Nat.lt_div_mul_add hcap (a := units + cap - 1)
  obtain ⟨full, hfull⟩ : ∃ full, (units + cap - 1) / cap = full + 1 :=
    Nat.exists_eq_add_one.2 (Nat.div_pos (by omega) hcap)
  rw [hfull, Nat.succ_mul] at hstart hend
  refine ⟨?_, units - cap * full, ?_, ?_, ?_⟩
  · simp [splitUnits, hfull]
  · rw [Nat.mul_comm cap]
    omega
  · rw [Nat.mul_comm cap]
    omega
  · simp [splitUnits, hfull]

/-- A group that was made is the one that was asked for. -/
theorem Group.make_given {id units writeBlock cap : Nat} {roles : Roles}
    {inputFunctions : Option (List InputFunction)} {outputFunctions : Option (List OutputFunction)}
    {isFirstOutput : Bool} {label : String} {g : Group}
    (h : Group.make id units roles inputFunctions outputFunctions writeBlock isFirstOutput label cap = .ok g) :
    g.label = label ∧ g.units = units ∧ g.writeBlock = writeBlock ∧ g.isFirstOutput = isFirstOutput := by
  unfold Group.make at h
  dsimp only at h
  iterate 5
    split at h
    · cases h
  cases h
  exact ⟨rfl, rfl, rfl, rfl⟩

namespace Topology

variable {t : Topology}

/-- The topology with a group that nothing is linked into yet. -/
def withGroup (t : Topology) (g : Group) : Topology :=
  { t with
    groups := t.groups ++ [g]
    outputChain := if g.roles.output then t.outputChain ++ [t.groups.length] else t.outputChain }

section AddGroup

variable {units : Nat} {roles : Roles} {inputFunctions : Option (List InputFunction)}
  {outputFunctions : Option (List OutputFunction)} {label : Option String} {id : GroupId} {grown : Topology}

/-- All that adding a group does. -/
theorem exists_make_of_addGroup (h : t.addGroup units roles inputFunctions outputFunctions label = .ok (id, grown)) :
    ∃ g, Group.make t.groups.length units roles inputFunctions outputFunctions
        (if roles.output then t.outputChain.length else 0) (roles.output && t.outputChain.isEmpty)
        (t.newLabel label) t.maxSubgroupUnits = .ok g ∧
      t.groupByLabel? (t.newLabel label) = none ∧
      if g.roles.output || g.roles.hidden then
        ∃ label, grown = (t.withGroup g).withLink bias t.groups.length label
      else grown = t.withGroup g := by
  unfold addGroup at h
  dsimp only at h
  by_cases hlabel : (t.groupByLabel? (label.getD s!"g{t.groups.length}")).isSome
  · rw [if_pos hlabel] at h
    cases h
  rw [if_neg hlabel] at h
  obtain ⟨g, hmake, h⟩ := bind_eq_ok_iff.1 h
  obtain ⟨_, _, _, rfl⟩ := Group.make_eq_ok hmake
  refine ⟨g, hmake, Option.not_isSome_iff_eq_none.1 hlabel, ?_⟩
  by_cases hlinked : g.roles.output || g.roles.hidden
  · rw [if_pos hlinked] at h ⊢
    obtain ⟨⟨_, linked⟩, hlink, h⟩ := bind_eq_ok_iff.1 h
    cases h
    exact (addLink_eq_ok hlink).2.2
  · rw [if_neg hlinked] at h ⊢
    cases h
    rfl

end AddGroup

/-- What the orders of groups, links and output groups have to do with each other. -/
structure Ordered (t : Topology) : Prop where
  labels_nodup : (t.groups.map (·.label)).Nodup
  link_ids : t.links.map (·.id) = List.range t.links.length
  linksFrom_eq : ∀ {i : Nat} {g : Group}, t.groups[i]? = some g →
    g.linksFrom = (t.links.filter (·.destination = i)).map (·.source)
  outputs_numbered : t.outputGroups.map (fun g => (g.writeBlock, g.isFirstOutput)) =
    (List.range t.outputGroups.length).map fun k => (k, decide (k = 0))

namespace Ordered

variable (h : t.Ordered)
include h

/-- A link goes to the end of both records of it. -/
theorem withLink (source destination : GroupId) (label : String) :
    (t.withLink source destination label).Ordered where
  labels_nodup := by
    rw [map_groups_withLink fun _ => rfl]
    exact h.labels_nodup
  link_ids := by
    simp only [Topology.withLink, modifyGroup, List.map_append, List.length_append, List.range_succ, h.link_ids,
      List.map_cons, List.map_nil, List.length_singleton]
  linksFrom_eq := by
    intro i g hg
    rw [groups_withLink, Option.map_eq_some_iff] at hg
    obtain ⟨before, hbefore, rfl⟩ := hg
    simp only [Topology.withLink, modifyGroup, List.filter_append, List.map_append, ← h.linksFrom_eq hbefore]
    by_cases hi : destination = i <;> simp [hi]
  outputs_numbered := by
    have hlength : (t.withLink source destination label).outputGroups.length = t.outputGroups.length := by
      simpa using congrArg List.length
        (map_outputGroups_withLink (t := t) (f := Group.withoutLinks) (fun _ => rfl) source destination label)
    rw [map_outputGroups_withLink fun _ => rfl, hlength]
    exact h.outputs_numbered

/-- A group joins at the end, with a label of its own and the next number if it is an output group. -/
theorem withGroup {g : Group} (hlinked : t.Linked) (hlabel : g.label ∉ t.groups.map (·.label))
    (hlinks : g.linksFrom = [])
    (hnumber : g.roles.output = true → g.writeBlock = t.outputGroups.length ∧
      g.isFirstOutput = decide (t.outputGroups.length = 0)) : (t.withGroup g).Ordered where
  labels_nodup := by
    have hlabels : (t.withGroup g).groups.map (·.label) = (t.groups.map (·.label)).concat g.label := by
      simp [Topology.withGroup]
    rw [hlabels]
    exact h.labels_nodup.concat hlabel
  link_ids := h.link_ids
  linksFrom_eq := by
    intro i other hother
    obtain hold | ⟨rfl, rfl⟩ := eq_some_or_of_getElem?_concat hother
    · exact h.linksFrom_eq hold
    · -- No link leads to a group that was not there.
      have hnone : t.links.filter (·.destination = t.groups.length) = [] := by
        rw [List.filter_eq_nil_iff]
        intro l hl
        simpa using (hlinked.link_lt l hl).2.ne
      rw [hlinks]
      exact (congrArg (List.map Link.source) hnone).symm
  outputs_numbered := by
    have hold := h.outputs_numbered
    unfold outputGroups at hold hnumber ⊢
    simp only [Topology.withGroup, List.filter_append, List.map_append, List.length_append, hold]
    by_cases houtput : g.roles.output = true
    · simp [houtput, List.range_succ, hnumber]
    · simp [houtput]

end Ordered

/-- The bias is the first predecessor of every output and hidden group. -/
def BiasFirst (t : Topology) : Prop := ∀ (i : Nat) (g : Group), t.groups[i]? = some g →
  (g.roles.output || g.roles.hidden) = true → g.linksFrom.head? = some bias

theorem BiasFirst.withLink (h : t.BiasFirst) (source destination : GroupId) (label : String) :
    (t.withLink source destination label).BiasFirst := by
  intro i g hg hroles
  obtain ⟨before, hbefore, rfl | ⟨_, rfl⟩⟩ := getElem?_withLink hg
  · exact h i g hbefore hroles
  · rw [List.head?_append, h i before hbefore hroles]
    rfl

/-- The bias is the one-unit group that every topology starts with. -/
def HasBias (t : Topology) : Prop := ∃ g, t.groups[bias]? = some g ∧ g.units = 1 ∧
  g.roles = Roles.ofList [.bias] ∧ g.label = biasLabel

theorem HasBias.withLink (h : t.HasBias) (source destination : GroupId) (label : String) :
    (t.withLink source destination label).HasBias := by
  obtain ⟨g, hg, hunits, hroles, hlabel⟩ := h
  unfold HasBias
  rw [groups_withLink, hg]
  refine ⟨_, rfl, ?_⟩
  split <;> exact ⟨hunits, hroles, hlabel⟩

theorem HasBias.withGroup (h : t.HasBias) (g : Group) : (t.withGroup g).HasBias := by
  obtain ⟨held, hheld, hfields⟩ := h
  exact ⟨held, (List.getElem?_append_left (List.getElem?_eq_some_iff.1 hheld).1).trans hheld, hfields⟩

section AddGroup

variable {units : Nat} {roles : Roles} {inputFunctions : Option (List InputFunction)}
  {outputFunctions : Option (List OutputFunction)} {label : Option String} {id : GroupId} {grown : Topology}
  (hadd : t.addGroup units roles inputFunctions outputFunctions label = .ok (id, grown))
include hadd

theorem Ordered.addGroup (h : t.Ordered) (hlinked : t.Linked) (hchain : t.ChainsOutputs) : grown.Ordered := by
  obtain ⟨g, hmake, hnew, hgrown⟩ := exists_make_of_addGroup hadd
  obtain ⟨_, _, hfresh, hroles⟩ := Group.make_eq_ok hmake
  obtain ⟨hlabel, _, hblock, hfirst⟩ := Group.make_given hmake
  have hlength : t.outputChain.length = t.outputGroups.length := by rw [hchain, List.length_map]
  have hbase : (t.withGroup g).Ordered := by
    refine h.withGroup hlinked ?_ hfresh.linksFrom_eq ?_
    · rw [hlabel]
      rintro htaken
      obtain ⟨other, hother, hsame⟩ := List.mem_map.1 htaken
      exact List.find?_eq_none.1 hnew other hother (beq_iff_eq.2 hsame)
    · intro houtput
      rw [hroles] at houtput
      rw [hblock, hfirst, houtput, ← hlength]
      exact ⟨rfl, by cases t.outputChain <;> rfl⟩
  split at hgrown
  · obtain ⟨label, rfl⟩ := hgrown
    exact hbase.withLink _ _ _
  · exact hgrown ▸ hbase

/-- A group that computes is linked from the bias when it is added. -/
theorem BiasFirst.addGroup (h : t.BiasFirst) : grown.BiasFirst := by
  obtain ⟨g, hmake, _, hgrown⟩ := exists_make_of_addGroup hadd
  have hlinks := (Group.make_eq_ok hmake).2.2.1.linksFrom_eq
  intro i other hother hroles
  split at hgrown
  · obtain ⟨label, rfl⟩ := hgrown
    rw [groups_withLink, Option.map_eq_some_iff] at hother
    obtain ⟨before, hbefore, rfl⟩ := hother
    obtain hold | ⟨rfl, rfl⟩ := eq_some_or_of_getElem?_concat hbefore
    · rw [if_neg (List.getElem?_eq_some_iff.1 hold).1.ne'] at hroles ⊢
      exact h _ _ hold hroles
    · rw [if_pos rfl]
      simp [hlinks]
  · rename_i hpassive
    obtain hold | ⟨rfl, rfl⟩ := eq_some_or_of_getElem?_concat (hgrown ▸ hother)
    · exact h _ _ hold hroles
    · exact absurd hroles hpassive

theorem HasBias.addGroup (h : t.HasBias) : grown.HasBias := by
  obtain ⟨g, _, _, hgrown⟩ := exists_make_of_addGroup hadd
  split at hgrown
  · obtain ⟨label, rfl⟩ := hgrown
    exact (h.withGroup g).withLink _ _ _
  · exact hgrown ▸ h.withGroup g

end AddGroup

section AddLink

variable {source destination : GroupId} {label : Option String} {id : Nat} {linked : Topology}
  (hlink : t.addLink source destination label = .ok (id, linked))
include hlink

theorem Ordered.addLink (h : t.Ordered) : linked.Ordered := by
  obtain ⟨_, _, _, rfl⟩ := addLink_eq_ok hlink
  exact h.withLink _ _ _

theorem BiasFirst.addLink (h : t.BiasFirst) : linked.BiasFirst := by
  obtain ⟨_, _, _, rfl⟩ := addLink_eq_ok hlink
  exact h.withLink _ _ _

theorem HasBias.addLink (h : t.HasBias) : linked.HasBias := by
  obtain ⟨_, _, _, rfl⟩ := addLink_eq_ok hlink
  exact h.withLink _ _ _

end AddLink

section Make

variable {cap : Nat} (hmake : make cap = .ok t)
include hmake

theorem ordered_of_make : t.Ordered := by
  obtain ⟨_, hadd⟩ := make_eq_ok hmake
  have hnone : (⟨[], [], [], cap⟩ : Topology).Ordered := ⟨List.nodup_nil, rfl, by simp, rfl⟩
  exact hnone.addGroup hadd ⟨by simp, by simp, by simp⟩ rfl

theorem biasFirst_of_make : t.BiasFirst := by
  obtain ⟨_, hadd⟩ := make_eq_ok hmake
  have hnone : (⟨[], [], [], cap⟩ : Topology).BiasFirst := by simp [BiasFirst]
  exact hnone.addGroup hadd

theorem hasBias_of_make : t.HasBias := by
  obtain ⟨_, hadd⟩ := make_eq_ok hmake
  obtain ⟨g, hbias, _, hgrown⟩ := exists_make_of_addGroup hadd
  obtain ⟨_, _, _, hroles⟩ := Group.make_eq_ok hbias
  obtain ⟨hlabel, hunits, _, _⟩ := Group.make_given hbias
  rw [hroles] at hgrown
  subst hgrown
  exact ⟨g, rfl, hunits, hroles, hlabel⟩

end Make

namespace Reachable

theorem linked (h : t.Reachable) : t.Linked := by
  induction h with
  | make hmake => exact linked_of_make hmake
  | addGroup _ hadd ih => exact ih.addGroup hadd
  | addLink _ hlink ih => exact ih.addLink hlink

theorem ordered (h : t.Reachable) : t.Ordered := by
  induction h with
  | make hmake => exact ordered_of_make hmake
  | addGroup ht hadd ih => exact ih.addGroup hadd ht.linked ht.chainsOutputs
  | addLink _ hlink ih => exact ih.addLink hlink

theorem biasFirst (h : t.Reachable) : t.BiasFirst := by
  induction h with
  | make hmake => exact biasFirst_of_make hmake
  | addGroup _ hadd ih => exact ih.addGroup hadd
  | addLink _ hlink ih => exact ih.addLink hlink

theorem hasBias (h : t.Reachable) : t.HasBias := by
  induction h with
  | make hmake => exact hasBias_of_make hmake
  | addGroup _ hadd ih => exact ih.addGroup hadd
  | addLink _ hlink ih => exact ih.addLink hlink

end Reachable

/-- A topology as it is read by position: what stands where, and what that says about it. -/
structure WellFormed (t : Topology) (cap : Nat) : Prop where
  group_id : ∀ {i : Nat} {g : Group}, t.groups[i]? = some g → g.id = i
  link_id : ∀ {i : Nat} {l : Link}, t.links[i]? = some l → l.id = i
  bias : t.HasBias
  labels_nodup : (t.groups.map (·.label)).Nodup
  bias_first : ∀ g ∈ t.groups, g.roles.output = true ∨ g.roles.hidden = true → g.linksFrom.head? = some Topology.bias
  linksFrom_nodup : ∀ g ∈ t.groups, g.linksFrom.Nodup
  linksFrom_eq : ∀ g ∈ t.groups, (t.links.filter (·.destination = g.id)).map (·.source) = g.linksFrom
  chain_sorted : t.outputChain.Pairwise (· < ·)
  mem_chain_iff : ∀ id, id ∈ t.outputChain ↔ ∃ g, t.groups[id]? = some g ∧ g.roles.output = true
  chain_position : ∀ {k : Nat} {id : GroupId} {g : Group}, t.outputChain[k]? = some id → t.groups[id]? = some g →
    g.writeBlock = k ∧ (g.isFirstOutput = true ↔ k = 0)
  subunits : ∀ g ∈ t.groups, g.subunits.length = g.units ⌈/⌉ cap ∧ g.subunits.sum = g.units ∧
    ∃ last, 0 < last ∧ last ≤ cap ∧ g.subunits = List.replicate (g.units ⌈/⌉ cap - 1) cap ++ [last]

/-- The output groups are numbered in the order of the chain. -/
theorem Ordered.position_of_chain (h : t.Ordered) (ht : t.Sound) (hchain : t.ChainsOutputs) {k : Nat} {id : GroupId}
    {g : Group} (hid : t.outputChain[k]? = some id) (hg : t.groups[id]? = some g) :
    g.writeBlock = k ∧ g.isFirstOutput = decide (k = 0) := by
  rw [hchain, List.getElem?_map, Option.map_eq_some_iff] at hid
  obtain ⟨output, houtput, rfl⟩ := hid
  have hsame : output = g := by
    have hfound := ht.group?_id (List.mem_of_mem_filter (List.mem_of_getElem? houtput))
    exact Option.some.inj (hfound.symm.trans hg)
  subst hsame
  have hk : k < t.outputGroups.length := (List.getElem?_eq_some_iff.1 houtput).1
  have hnumber := congrArg (·[k]?) h.outputs_numbered
  simp only [List.getElem?_map, houtput, List.getElem?_range hk, Option.map_some, Option.some.injEq,
    Prod.mk.injEq] at hnumber
  exact hnumber

theorem Reachable.wellFormed (h : t.Reachable) : t.WellFormed t.maxSubgroupUnits where
  group_id := fun hg => (h.sound.placed hg).id_eq
  link_id := by
    intro i l hl
    have hid := congrArg (·[i]?) h.ordered.link_ids
    simp only [List.getElem?_map, hl, List.getElem?_range (List.getElem?_eq_some_iff.1 hl).1, Option.map_some,
      Option.some.injEq] at hid
    exact hid
  bias := h.hasBias
  labels_nodup := h.ordered.labels_nodup
  bias_first := by
    intro g hg hroles
    obtain ⟨i, hi⟩ := List.mem_iff_getElem?.1 hg
    exact h.biasFirst i g hi (by simpa using hroles)
  linksFrom_nodup := by
    intro g hg
    obtain ⟨i, hi⟩ := List.mem_iff_getElem?.1 hg
    exact h.linked.nodup_linksFrom hi
  linksFrom_eq := by
    intro g hg
    obtain ⟨i, hi⟩ := List.mem_iff_getElem?.1 hg
    rw [(h.sound.placed hi).id_eq]
    exact (h.ordered.linksFrom_eq hi).symm
  chain_sorted := by
    have hchain : t.outputChain.Sublist (List.range t.groups.length) := by
      rw [h.chainsOutputs, ← h.sound.map_id_eq_range]
      exact (List.filter_sublist).map _
    exact List.pairwise_lt_range.sublist hchain
  mem_chain_iff := by
    intro id
    rw [h.chainsOutputs, List.mem_map]
    constructor
    · rintro ⟨g, hg, rfl⟩
      exact ⟨g, h.sound.group?_id (List.mem_of_mem_filter hg), (List.mem_filter.1 hg).2⟩
    · rintro ⟨g, hg, houtput⟩
      exact ⟨g, List.mem_filter.2 ⟨List.mem_of_getElem? hg, houtput⟩, (h.sound.placed hg).id_eq⟩
  chain_position := by
    intro k id g hid hg
    obtain ⟨hblock, hfirst⟩ := h.ordered.position_of_chain h.sound h.chainsOutputs hid hg
    exact ⟨hblock, by rw [hfirst, decide_eq_true_eq]⟩
  subunits := by
    intro g hg
    obtain ⟨i, hi⟩ := List.mem_iff_getElem?.1 hg
    have hplaced := h.sound.placed hi
    obtain ⟨hlength, last, hpos, hle, hsplit⟩ := splitUnits_spec hplaced.units_pos h.sound.cap_pos
    exact ⟨by rw [hplaced.subunits_eq, hlength], hplaced.sum_subunits h.sound.cap_pos, last, hpos, hle,
      hplaced.subunits_eq.trans hsplit⟩

end Topology

/-- The calls that a topology grows by. -/
inductive GrowthCall where
  | addGroup (units : Nat) (roles : Roles) (inputFunctions : Option (List InputFunction))
      (outputFunctions : Option (List OutputFunction)) (label : Option String)
  | addLink (source destination : GroupId) (label : Option String)

namespace GrowthCall

/-- Makes the call, with its changes one after another. The identifier that it answers with does not
matter here. -/
def make : GrowthCall → Step Topology Unit
  | .addGroup units roles inputFunctions outputFunctions label => do
    let _ ← Topology.addGroupInPlace units roles inputFunctions outputFunctions label
  | .addLink source destination label => do
    let _ ← Topology.addLinkInPlace source destination label

/-- A call is granted as one of the two ways to grow, or it changes nothing. -/
theorem make_cases (call : GrowthCall) (t : Topology) :
    (∃ later, call.make t = .ok () later ∧ (t.Reachable → later.Reachable) ∧
        later.maxSubgroupUnits = t.maxSubgroupUnits) ∨ ∃ e, call.make t = .error e t := by
  cases call with
  | addGroup units roles inputFunctions outputFunctions label =>
    obtain ⟨e, hrefused, _⟩ | ⟨id, grown, hgranted, hadd⟩ :=
      t.addGroupInPlace_cases units roles inputFunctions outputFunctions label
    · exact .inr ⟨e, Step.bind_error hrefused⟩
    · refine .inl ⟨grown, Step.bind_ok hgranted, fun ht => .addGroup ht hadd, ?_⟩
      obtain ⟨_, _, _, _, _, _, rfl, rfl | ⟨_, rfl⟩⟩ := Topology.addGroup_eq_ok hadd
      · rfl
      · rfl
  | addLink source destination label =>
    have hplace := congrFun (Topology.addLinkInPlace_eq source destination label) t
    cases hlink : t.addLink source destination label with
    | error e => exact .inr ⟨e, Step.bind_error (hplace.trans (Step.atOnce_error hlink))⟩
    | ok found =>
      obtain ⟨id, linked⟩ := found
      refine .inl ⟨linked, Step.bind_ok (hplace.trans (Step.atOnce_ok hlink)), fun ht => .addLink ht hlink, ?_⟩
      obtain ⟨_, _, _, rfl⟩ := Topology.addLink_eq_ok hlink
      rfl

end GrowthCall

namespace Topology

variable {t : Topology}

/-- The topology after a history of calls, granted or not. -/
def grow (t : Topology) (calls : List GrowthCall) : Topology :=
  calls.foldl (fun t call => Step.after call.make t) t

theorem Reachable.grow (h : t.Reachable) (calls : List GrowthCall) :
    (t.grow calls).Reachable ∧ (t.grow calls).maxSubgroupUnits = t.maxSubgroupUnits := by
  induction calls generalizing t with
  | nil => exact ⟨h, rfl⟩
  | cons call rest ih =>
    unfold Topology.grow
    rw [List.foldl_cons]
    obtain ⟨later, hmake, hlater, hcap⟩ | ⟨e, hmake⟩ := call.make_cases t
    · rw [Step.after_ok hmake, ← hcap]
      exact ih (hlater h)
    · rw [Step.after_error hmake]
      exact ih h

/-- A new topology is split by the bound that it was made with. -/
theorem maxSubgroupUnits_of_make {cap : Nat} (h : make cap = .ok t) : t.maxSubgroupUnits = cap := by
  obtain ⟨_, hadd⟩ := make_eq_ok h
  obtain ⟨_, _, _, _, _, _, rfl, rfl | ⟨_, rfl⟩⟩ := addGroup_eq_ok hadd
  · rfl
  · rfl

/-- After any history of calls, with refused ones among them, a topology is well-formed, and a call
that is refused then leaves it as it was. -/
theorem construction_spec {cap : Nat} {start : Topology} (hmake : make cap = .ok start) (calls : List GrowthCall) :
    (start.grow calls).WellFormed cap ∧ ∀ (call : GrowthCall) (e : Error) (later : Topology),
      call.make (start.grow calls) = .error e later → later = start.grow calls := by
  obtain ⟨hreachable, hcap⟩ := (Reachable.make hmake).grow calls
  refine ⟨?_, ?_⟩
  · rw [← maxSubgroupUnits_of_make hmake, ← hcap]
    exact hreachable.wellFormed
  · intro call e later hrefused
    obtain ⟨_, hgranted, _⟩ | ⟨_, hsame⟩ := call.make_cases (start.grow calls)
    · cases hgranted.symm.trans hrefused
    · cases hsame.symm.trans hrefused
      rfl

section Example

/-- An output group of five units, the same label again, a second output group, and its link from
the first, twice. -/
def twoOutputs : List GrowthCall :=
  [.addGroup 5 (.ofList [.output]) none none (some "first"), .addGroup 1 (.ofList [.hidden]) none none (some "first"),
    .addGroup 2 (.ofList [.input, .output]) none none none, .addLink 1 2 none, .addLink 1 2 none]

/-- Of the calls the second and the last are refused. -/
theorem construction_spec_two_outputs : ∃ start, make 2 = .ok start ∧ (start.grow twoOutputs).WellFormed 2 ∧
    (start.grow twoOutputs).groups.map (·.subunits) = [[1], [2, 2, 1], [2]] ∧
    (start.grow twoOutputs).links.map (fun l => (l.source, l.destination)) = [(0, 1), (0, 2), (1, 2)] ∧
    ∃ later, (GrowthCall.addLink 1 2 none).make (start.grow twoOutputs) =
      .error (.topology (.linkDeclared "first" "g2")) later ∧ later = start.grow twoOutputs := by
  obtain ⟨start, hmake, later, hrefused⟩ : ∃ start, make 2 = .ok start ∧ ∃ later,
      (GrowthCall.addLink 1 2 none).make (start.grow twoOutputs) =
        .error (.topology (.linkDeclared "first" "g2")) later := ⟨_, rfl, _, rfl⟩
  obtain ⟨hformed, hkeeps⟩ := construction_spec hmake twoOutputs
  refine ⟨start, hmake, hformed, ?_, ?_, later, hrefused, hkeeps _ _ _ hrefused⟩
  · cases hmake
    rfl
  · cases hmake
    rfl

end Example

end Topology

end PerceptronMesh

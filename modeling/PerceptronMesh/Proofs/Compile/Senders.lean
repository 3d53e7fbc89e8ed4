import PerceptronMesh.Proofs.Compile.Units

/-!
Who each unit hears from, by role and category: for every role one list of senders, and the
statement that exactly these are wired.
-/

namespace PerceptronMesh.Plan

/-- The last output, to all units but itself. -/
def stopSender (p : Plan) : List UnitId := (p.lastOutput.map thresholdOf).toList

def weightSenders (p : Plan) (x y : Subgroup) : Category → List UnitId
  | .forward => [thresholdOf y]
  | .backprop => [inputOf x]
  | .linkDeltaSum => p.globalRoot.toList
  | .syncGen => if x = y then [rootOf x] else [rootOf x, rootOf y]
  | .stop => p.stopSender

def inputSenders (p : Plan) (x : Subgroup) : Category → List UnitId
  | .forward => [rootOf x]
  | .backprop => [thresholdOf x]
  | .linkDeltaSum | .syncGen => []
  | .stop => p.stopSender

def thresholdSenders (p : Plan) (x : Subgroup) : Category → List UnitId
  | .forward => [inputOf x]
  | .backprop => [rootOf x]
  | .linkDeltaSum | .syncGen => []
  | .stop =>
    (p.chainPredecessor x).toList.map thresholdOf ++
      if p.lastOutput.isSome && !p.isLastOutput x then p.stopSender else []

/-- Subgroups whose leaf hangs at a node. -/
def leavesAt (p : Plan) (node : Nat) : List Subgroup :=
  p.subgroups.filter fun y => p.tree.leafNode y.index == node

/-- The Weight unit that hangs as the leaf of `y` in the tree of `x`. -/
def leafSender (x y : Subgroup) : Category → UnitId
  | .backprop => weightOf y x
  | _ => weightOf x y

/-- Messages that a leaf sends. -/
def leafPackets (x : Subgroup) : Category → UInt32
  | .linkDeltaSum => .ofNat x.units
  | _ => 1

/-- Roots that report to the root of a subgroup. -/
def siblingRoots (p : Plan) (x : Subgroup) : List UnitId :=
  if x.subgroup ≠ 0 then []
  else
    (List.range (p.subgroupCount x.group - 1)).map (fun s => .sum x.group (s + 1) 0) ++
      if x.group = p.firstGroup then (List.range (p.groupCount - 1)).map (fun g => .sum (g + 1) 0 0)
      else []

def siblingSenders (p : Plan) (x : Subgroup) (node : Nat) (c : Category) : List UnitId :=
  if node = 0 ∧ (c = .linkDeltaSum ∨ c = .syncGen) then p.siblingRoots x else []

/-- What a node of a subgroup's tree takes in, with its packets. -/
def sumSenders (p : Plan) (x : Subgroup) (node : Nat) (c : Category) : List (UnitId × UInt32) :=
  (p.leavesAt node).map (fun y => (leafSender x y c, leafPackets x c)) ++
    (((p.tree.children node).map (UnitId.sum x.group x.subgroup) ++ p.siblingSenders x node c).map
      fun id => (id, 1))

variable {p : Plan}

theorem wired_stop_iff {units : List UnitId} {source target : UnitId} {packets : UInt32} :
    p.Wired units source target .stop packets ↔ packets = 1 ∧
      ((∃ (i : Nat) (x y : Subgroup), p.stopChain[i]? = some x ∧ p.stopChain[i + 1]? = some y ∧
          source = thresholdOf x ∧ target = thresholdOf y) ∨
        ∃ last, p.lastOutput = some last ∧ source = thresholdOf last ∧ target ∈ units ∧
          target ≠ thresholdOf last) := by
  constructor
  · intro h
    cases h with
    | branch _ _ hc => simp [summed] at hc
    | sibling _ _ _ hc => simp at hc
    | decision hi hnext => exact ⟨rfl, .inl ⟨_, _, _, hi, hnext, rfl, rfl⟩⟩
    | broadcast hlast hmem hne => exact ⟨rfl, .inr ⟨_, hlast, rfl, hmem, hne⟩⟩
  · rintro ⟨rfl, ⟨i, x, y, hi, hnext, rfl, rfl⟩ | ⟨last, hlast, rfl, hmem, hne⟩⟩
    · exact .decision hi hnext
    · exact .broadcast hlast hmem hne

/-- Only Threshold units take part in the chain. -/
theorem wired_stop_iff_broadcast {units : List UnitId} {source target : UnitId} {packets : UInt32}
    (hmem : target ∈ units) (hother : ∀ x, target ≠ thresholdOf x) :
    p.Wired units source target .stop packets ↔ source ∈ p.stopSender ∧ packets = 1 := by
  simp only [wired_stop_iff, stopSender, Option.mem_toList, Option.map_eq_some_iff]
  constructor
  · rintro ⟨hone, ⟨_, _, y, _, _, _, hy⟩ | ⟨last, hlast, hsource, _⟩⟩
    · exact absurd hy (hother y)
    · exact ⟨⟨last, hlast, hsource.symm⟩, hone⟩
  · rintro ⟨⟨last, hlast, hsource⟩, hone⟩
    exact ⟨hone, .inr ⟨last, hlast, hsource.symm, hmem, hother last⟩⟩

theorem isLastOutput_iff {x : Subgroup} : p.isLastOutput x ↔ p.lastOutput = some x := by
  simp [isLastOutput]

theorem category_eq_stop {c : Category} (h : c ∉ summed) : c = .stop := by
  cases c <;> simp_all [summed]

/-- Only roots have siblings, and only for link deltas and pulses. -/
theorem mem_siblingSenders {x : Subgroup} {node : Nat} {c : Category} {id : UnitId} :
    id ∈ p.siblingSenders x node c ↔
      node = 0 ∧ (c = .linkDeltaSum ∨ c = .syncGen) ∧ id ∈ p.siblingRoots x := by
  rw [siblingSenders, ← and_assoc]
  split
  · rename_i hroot
    rw [and_iff_right hroot]
  · rename_i hother
    exact iff_of_false List.not_mem_nil fun h => hother h.1

theorem mem_sumSenders {x : Subgroup} {node : Nat} {c : Category} {source : UnitId} {packets : UInt32} :
    (source, packets) ∈ p.sumSenders x node c ↔
      (∃ y ∈ p.subgroups, p.tree.leafNode y.index = node ∧ source = leafSender x y c ∧
        packets = leafPackets x c) ∨
      ((∃ child, p.tree.parent child = some node ∧ source = .sum x.group x.subgroup child) ∨
        source ∈ p.siblingSenders x node c) ∧ packets = 1 := by
  simp only [sumSenders, leavesAt, List.mem_append, List.mem_map, List.mem_filter, beq_iff_eq,
    Prod.mk.injEq, TreeLayout.mem_children]
  constructor
  · rintro (⟨y, ⟨hy, hleaf⟩, rfl, rfl⟩ | ⟨id, ⟨child, hchild, rfl⟩ | hsibling, rfl, rfl⟩)
    · exact .inl ⟨y, hy, hleaf, rfl, rfl⟩
    · exact .inr ⟨.inl ⟨child, hchild, rfl⟩, rfl⟩
    · exact .inr ⟨.inr hsibling, rfl⟩
  · rintro (⟨y, hy, hleaf, rfl, rfl⟩ | ⟨⟨child, hchild, rfl⟩ | hsibling, rfl⟩)
    · exact .inl ⟨y, ⟨hy, hleaf⟩, rfl, rfl⟩
    · exact .inr ⟨_, .inl ⟨child, hchild, rfl⟩, rfl, rfl⟩
    · exact .inr ⟨_, .inr hsibling, rfl, rfl⟩

namespace Coherent

variable (hp : p.Coherent)
include hp

theorem exists_root_of_report {x : Subgroup} {root target : UnitId} (hx : x ∈ p.subgroups)
    (hroot : p.globalRoot = some root) (htarget : p.reportsTo root x = some target) :
    ∃ y ∈ p.subgroups, target = rootOf y := by
  obtain ⟨y, hy, _, rfl, _⟩ := (hp.reportsTo_eq_some_iff hx hroot).1 htarget
  exact ⟨y, hy, rfl⟩

theorem wired_weight_iff {x y : Subgroup} (hx : x ∈ p.subgroups) (hy : y ∈ p.subgroups) {c : Category}
    {source : UnitId} {packets : UInt32} :
    p.Wired (p.units.map (·.id)) source (weightOf x y) c packets ↔
      source ∈ p.weightSenders x y c ∧ packets = 1 := by
  constructor
  · generalize htarget : weightOf x y = target
    intro h
    cases h with
    | activation ha hb | derivative ha hb =>
      obtain ⟨rfl, rfl⟩ := hp.weightOf_inj hx hy ha hb htarget
      exact ⟨List.mem_singleton_self _, rfl⟩
    | scale _ _ hroot => exact ⟨Option.mem_toList.2 hroot, rfl⟩
    | releaseTarget ha hb =>
      obtain ⟨rfl, rfl⟩ := hp.weightOf_inj hx hy ha hb htarget
      refine ⟨?_, rfl⟩
      unfold weightSenders
      dsimp only
      split <;> simp
    | releaseSource ha hb =>
      obtain ⟨rfl, rfl⟩ := hp.weightOf_inj hx hy ha hb htarget
      refine ⟨?_, rfl⟩
      unfold weightSenders
      dsimp only
      split <;> simp [*]
    | sibling ha hroot hreport _ =>
      obtain ⟨_, _, rfl⟩ := hp.exists_root_of_report ha hroot hreport
      cases htarget
    | broadcast hlast _ _ => exact ⟨by simp [weightSenders, stopSender, hlast], rfl⟩
    | weighted | weightedBack | delta | pulse | netInput | output | errorBack | sumBack | branch
    | decision => cases htarget
  · rintro ⟨hsource, rfl⟩
    cases c with
    | forward => exact List.mem_singleton.1 hsource ▸ .activation hx hy
    | backprop => exact List.mem_singleton.1 hsource ▸ .derivative hx hy
    | linkDeltaSum => exact .scale hx hy (Option.mem_toList.1 hsource)
    | syncGen =>
      have heither : source = rootOf x ∨ source = rootOf y := by
        simp only [weightSenders] at hsource
        split at hsource
        · exact .inl (List.mem_singleton.1 hsource)
        · simpa using hsource
      obtain rfl | rfl := heither
      · exact .releaseTarget hx hy
      · exact .releaseSource hx hy
    | stop =>
      exact (wired_stop_iff_broadcast (HasUnit.weight hx hy).id_mem (by simp [MeshUnit.weight, thresholdOf])).2
        ⟨hsource, rfl⟩

theorem wired_input_iff {x : Subgroup} (hx : x ∈ p.subgroups) {c : Category} {source : UnitId}
    {packets : UInt32} :
    p.Wired (p.units.map (·.id)) source (inputOf x) c packets ↔
      source ∈ p.inputSenders x c ∧ packets = 1 := by
  constructor
  · generalize htarget : inputOf x = target
    intro h
    cases h with
    | netInput ha | errorBack ha =>
      obtain rfl := hp.inputOf_inj hx ha htarget
      exact ⟨List.mem_singleton_self _, rfl⟩
    | sibling ha hroot hreport _ =>
      obtain ⟨_, _, rfl⟩ := hp.exists_root_of_report ha hroot hreport
      cases htarget
    | broadcast hlast _ _ => exact ⟨by simp [inputSenders, stopSender, hlast], rfl⟩
    | activation | weighted | derivative | weightedBack | delta | scale | pulse | releaseTarget
    | releaseSource | output | sumBack | branch | decision => cases htarget
  · rintro ⟨hsource, rfl⟩
    cases c with
    | forward => exact List.mem_singleton.1 hsource ▸ .netInput hx
    | backprop => exact List.mem_singleton.1 hsource ▸ .errorBack hx
    | linkDeltaSum | syncGen => cases hsource
    | stop =>
      exact (wired_stop_iff_broadcast (HasUnit.input hx).id_mem (by simp [MeshUnit.input, thresholdOf])).2
        ⟨hsource, rfl⟩

theorem wired_threshold_iff {x : Subgroup} (hx : x ∈ p.subgroups) {c : Category} {source : UnitId}
    {packets : UInt32} :
    p.Wired (p.units.map (·.id)) source (thresholdOf x) c packets ↔
      source ∈ p.thresholdSenders x c ∧ packets = 1 := by
  constructor
  · generalize htarget : thresholdOf x = target
    intro h
    cases h with
    | output ha | sumBack ha =>
      obtain rfl := hp.thresholdOf_inj hx ha htarget
      exact ⟨List.mem_singleton_self _, rfl⟩
    | sibling ha hroot hreport _ =>
      obtain ⟨_, _, rfl⟩ := hp.exists_root_of_report ha hroot hreport
      cases htarget
    | decision hi hnext =>
      obtain rfl := hp.thresholdOf_inj hx (hp.mem_of_stopChain hnext) htarget
      have hbefore := hp.chainPredecessor_eq_some_iff.2 ⟨_, hi, hnext⟩
      exact ⟨by simp [thresholdSenders, hbefore], rfl⟩
    | @broadcast last _ hlast _ hne =>
      subst htarget
      have hnot : p.isLastOutput x = false := by
        rw [Bool.eq_false_iff, Ne, isLastOutput_iff, hlast]
        rintro ⟨rfl⟩
        exact hne rfl
      exact ⟨by simp [thresholdSenders, stopSender, hlast, hnot], rfl⟩
    | activation | weighted | derivative | weightedBack | delta | scale | pulse | releaseTarget
    | releaseSource | netInput | errorBack | branch => cases htarget
  · rintro ⟨hsource, rfl⟩
    cases c with
    | forward => exact List.mem_singleton.1 hsource ▸ .output hx
    | backprop => exact List.mem_singleton.1 hsource ▸ .sumBack hx
    | linkDeltaSum | syncGen => cases hsource
    | stop =>
      rcases List.mem_append.1 hsource with hchain | hlast
      · obtain ⟨y, hy, rfl⟩ := List.mem_map.1 hchain
        obtain ⟨i, hi, hnext⟩ := hp.chainPredecessor_eq_some_iff.1 (Option.mem_toList.1 hy)
        exact .decision hi hnext
      · split at hlast
        · rename_i hcond
          simp only [stopSender, Option.mem_toList, Option.map_eq_some_iff] at hlast
          obtain ⟨last, hlast, rfl⟩ := hlast
          refine .broadcast hlast (HasUnit.threshold hx).id_mem ?_
          intro hsame
          obtain rfl := hp.thresholdOf_inj hx (hp.mem_of_lastOutput hlast) hsame
          simp [isLastOutput_iff.2 hlast] at hcond
        · cases hlast

/-- Roots report to the first subgroup of their group, and from there to the first of all. -/
theorem reportsTo_root_iff {x y : Subgroup} {root : UnitId} (hx : x ∈ p.subgroups)
    (hy : y ∈ p.subgroups) (hroot : p.globalRoot = some root) :
    p.reportsTo root y = some (rootOf x) ↔ x.subgroup = 0 ∧ (y.subgroup ≠ 0 ∧ y.group = x.group ∨
      y.subgroup = 0 ∧ y.group ≠ p.firstGroup ∧ x.group = p.firstGroup) := by
  rw [hp.reportsTo_eq_some_iff hy hroot]
  constructor
  · rintro ⟨z, hz, hzero, hsame, hwhere⟩
    obtain rfl := hp.rootOf_inj hx hz hsame
    exact ⟨hzero, hwhere.imp_left (And.imp_right Eq.symm)⟩
  · rintro ⟨hzero, hwhere⟩
    exact ⟨x, hx, hzero, rfl, hwhere.imp_left (And.imp_right Eq.symm)⟩

theorem mem_siblingRoots_iff {x : Subgroup} {root source : UnitId} (hx : x ∈ p.subgroups)
    (hroot : p.globalRoot = some root) :
    source ∈ p.siblingRoots x ↔
      ∃ y ∈ p.subgroups, source = rootOf y ∧ p.reportsTo root y = some (rootOf x) := by
  unfold siblingRoots
  split
  · rename_i hlater
    simp only [List.not_mem_nil, false_iff]
    rintro ⟨y, hy, _, hreport⟩
    exact hlater ((hp.reportsTo_root_iff hx hy hroot).1 hreport).1
  · rename_i hfirst
    rw [not_not] at hfirst
    rw [List.mem_append]
    constructor
    · rintro (hown | hother)
      · obtain ⟨s, hs, rfl⟩ := List.mem_map.1 hown
        have hs := List.mem_range.1 hs
        have hnext : s + 1 < p.subgroupCount x.group := by omega
        obtain ⟨y, hy, hgroup, hsubgroup⟩ := hp.complete hnext
        have hreport := (hp.reportsTo_root_iff hx hy hroot).2 ⟨hfirst, .inl ⟨by omega, hgroup⟩⟩
        exact ⟨y, hy, by rw [rootOf, hgroup, hsubgroup], hreport⟩
      · split at hother
        · rename_i hglobal
          obtain ⟨g, hg, rfl⟩ := List.mem_map.1 hother
          have hg := List.mem_range.1 hg
          obtain ⟨y, hy, hgroup, hsubgroup⟩ := hp.complete (hp.count_pos (g + 1) (by omega))
          have hnot : y.group ≠ p.firstGroup := by
            rw [hgroup]
            exact Nat.succ_ne_zero g
          have hreport := (hp.reportsTo_root_iff hx hy hroot).2 ⟨hfirst, .inr ⟨hsubgroup, hnot, hglobal⟩⟩
          exact ⟨y, hy, by rw [rootOf, hgroup, hsubgroup], hreport⟩
        · cases hother
    · rintro ⟨y, hy, rfl, hreport⟩
      obtain ⟨_, ⟨hlater, hgroup⟩ | ⟨hzero, hnot, hglobal⟩⟩ := (hp.reportsTo_root_iff hx hy hroot).1 hreport
      · have hlt := (hp.place y hy).1
        rw [hgroup] at hlt
        refine .inl (List.mem_map.2 ⟨y.subgroup - 1, List.mem_range.2 (by omega), ?_⟩)
        rw [rootOf, hgroup, Nat.sub_add_cancel (by omega)]
      · have hlt := hp.group_lt hy
        have hpos : 0 < y.group := Nat.pos_of_ne_zero hnot
        refine .inr ?_
        rw [if_pos hglobal]
        refine List.mem_map.2 ⟨y.group - 1, List.mem_range.2 (Nat.sub_lt_sub_right hpos hlt), ?_⟩
        rw [rootOf, hzero, Nat.sub_add_cancel hpos]

theorem wired_sum_iff {x : Subgroup} (hx : x ∈ p.subgroups) {node : Nat} {c : Category}
    (hc : c ∈ summed) {source : UnitId} {packets : UInt32} :
    p.Wired (p.units.map (·.id)) source (.sum x.group x.subgroup node) c packets ↔
      (source, packets) ∈ p.sumSenders x node c := by
  obtain ⟨first, hfirst, _, _, hglobal⟩ := hp.globalRoot_eq
  rw [mem_sumSenders]
  constructor
  · generalize htarget : UnitId.sum x.group x.subgroup node = target
    intro h
    cases h with
    | @weighted a b ha hb | @delta a b ha hb | @pulse a b ha hb =>
      obtain ⟨hgroup, hsubgroup, hnode⟩ := UnitId.sum.inj htarget
      obtain rfl := hp.eq_of_place_eq hx ha hgroup hsubgroup
      exact .inl ⟨b, hb, hnode.symm, rfl, rfl⟩
    | @weightedBack a b ha hb =>
      obtain ⟨hgroup, hsubgroup, hnode⟩ := UnitId.sum.inj htarget
      obtain rfl := hp.eq_of_place_eq hx hb hgroup hsubgroup
      exact .inl ⟨a, ha, hnode.symm, rfl, rfl⟩
    | @branch a child above _ ha habove _ =>
      obtain ⟨hgroup, hsubgroup, rfl⟩ := UnitId.sum.inj htarget
      obtain rfl := hp.eq_of_place_eq hx ha hgroup hsubgroup
      exact .inr ⟨.inl ⟨child, habove, rfl⟩, rfl⟩
    | @sibling a root _ _ ha hroot hreport hcategory =>
      obtain ⟨b, hb, rfl⟩ := hp.exists_root_of_report ha hroot hreport
      obtain ⟨hgroup, hsubgroup, rfl⟩ := UnitId.sum.inj htarget
      obtain rfl := hp.eq_of_place_eq hx hb hgroup hsubgroup
      refine .inr ⟨.inr ?_, rfl⟩
      rw [siblingSenders, if_pos ⟨rfl, hcategory⟩, hp.mem_siblingRoots_iff hx hroot]
      exact ⟨a, ha, rfl, hreport⟩
    | decision | broadcast => simp [summed] at hc
    | activation | derivative | scale | releaseTarget | releaseSource | netInput | output | errorBack
    | sumBack => cases htarget
  · rintro (⟨y, hy, rfl, rfl, rfl⟩ | ⟨⟨child, hchild, rfl⟩ | hsibling, rfl⟩)
    · cases c with
      | forward => exact .weighted hx hy
      | backprop => exact .weightedBack hy hx
      | linkDeltaSum => exact .delta hx hy
      | syncGen => exact .pulse hx hy
      | stop => simp [summed] at hc
    · exact .branch hx hchild hc
    · unfold siblingSenders at hsibling
      split at hsibling
      · rename_i hcond
        obtain ⟨rfl, hcategory⟩ := hcond
        obtain ⟨y, hy, rfl, hreport⟩ := (hp.mem_siblingRoots_iff hx hglobal).1 hsibling
        exact .sibling hy hglobal hreport hcategory
      · cases hsibling

end Coherent

end PerceptronMesh.Plan

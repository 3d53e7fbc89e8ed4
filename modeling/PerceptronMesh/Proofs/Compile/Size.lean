import Mathlib.Algebra.BigOperators.Group.List.Lemmas
import Mathlib.Algebra.GroupWithZero.Nat
import PerceptronMesh.Proofs.Compile.Climb
import PerceptronMesh.Proofs.Compile.StopChain

/-!
How large a compiled graph is. Every edge arrives at one unit, so that there are as many edges of
a category as all units together expect senders in it. Those are counted from the plan: by pairs
of subgroups, by the nodes of their trees, by the roots that report to others and by the stop chain.
-/

namespace PerceptronMesh

/-- Units of a role, for so many subgroups and nodes of each tree. -/
def roleCount (subgroups nodes : Nat) : UnitRole → Nat
  | .weight => subgroups * subgroups
  | .sum => subgroups * nodes
  | .input | .threshold => subgroups

def unitCount (subgroups nodes : Nat) : Nat := subgroups * subgroups + subgroups * nodes + 2 * subgroups

/-- Edges of a category, for so many subgroups, nodes of each tree and output subgroups. -/
def edgeCount (subgroups nodes outputs : Nat) : Category → Nat
  | .forward | .backprop => 2 * (subgroups * subgroups) + 2 * subgroups + subgroups * (nodes - 1)
  | .linkDeltaSum => 2 * (subgroups * subgroups) + subgroups * (nodes - 1) + (subgroups - 1)
  | .syncGen => 3 * (subgroups * subgroups) - subgroups + subgroups * (nodes - 1) + (subgroups - 1)
  | .stop => if outputs = 0 then 0 else outputs - 1 + (unitCount subgroups nodes - 1)

/-- A graph has the units and edges of so many subgroups, nodes of each tree and output subgroups,
and has none of them twice. -/
structure Graph.Sized (g : Graph) (subgroups nodes outputs : Nat) : Prop where
  units_of_role : ∀ role, (g.unitsWithRole role).length = roleCount subgroups nodes role
  size_units : g.units.size = unitCount subgroups nodes
  nodup_text : (g.units.toList.map (·.id.text)).Nodup
  nodup_key : (g.edges.toList.map Edge.key).Nodup
  edges_of_category : ∀ c, (g.edges.toList.filter (·.category = c)).length = edgeCount subgroups nodes outputs c
  size_edges : g.edges.size = (Category.all.map (edgeCount subgroups nodes outputs)).sum

section Count

variable {α β : Type} [DecidableEq β]

omit [DecidableEq β] in
theorem length_filter_eq_sum (q : β → Bool) (items : List β) :
    (items.filter q).length = (items.map fun b => if q b then 1 else 0).sum := by
  induction items with
  | nil => rfl
  | cons b items ih => by_cases h : q b <;> simp [h, ih, Nat.add_comm]

theorem sum_indicator {items : List β} {b : β} (hitems : items.Nodup) (hb : b ∈ items) :
    (items.map fun other => if b = other then 1 else 0).sum = 1 := by
  rw [List.sum_map_eq_nsmul_single b, List.count_eq_one_of_mem hitems hb]
  · simp
  · intro other hne _
    rw [if_neg hne.symm]

theorem sum_except {items : List β} {b : β} (hitems : items.Nodup) (hb : b ∈ items) (n : Nat) :
    (items.map fun other => if b = other then n else n + 1).sum + 1 = items.length * (n + 1) := by
  have hsplit : (fun other => (if b = other then n else n + 1) + if b = other then 1 else 0) = fun _ => n + 1 := by
    funext other
    split <;> rfl
  have hall := List.sum_map_add (l := items) (f := fun other => if b = other then n else n + 1)
    (g := fun other => if b = other then 1 else 0)
  rw [hsplit, List.map_const', List.sum_replicate_nat, sum_indicator hitems hb] at hall
  exact hall.symm

/-- Members of a list counted by what they belong to, those that belong to nothing apart. -/
theorem sum_length_filter_add (key : α → Option β) (items : List α) {keys : List β} (hkeys : keys.Nodup)
    (hmem : ∀ a ∈ items, ∀ b, key a = some b → b ∈ keys) :
    (keys.map fun b => (items.filter fun a => key a = some b).length).sum +
      (items.filter fun a => key a = none).length = items.length := by
  induction items with
  | nil => simp
  | cons a items ih =>
    have hrest := ih fun other hother => hmem other (List.mem_cons_of_mem _ hother)
    have hstep (b : β) : ((a :: items).filter fun a => key a = some b).length =
        (if key a = some b then 1 else 0) + (items.filter fun a => key a = some b).length := by
      by_cases h : key a = some b <;> simp [h, Nat.add_comm]
    simp only [hstep, List.sum_map_add]
    cases hkey : key a with
    | none =>
      simp [hkey]
      omega
    | some b =>
      simp only [Option.some.injEq, sum_indicator hkeys (hmem a List.mem_cons_self b hkey)]
      simp [hkey]
      omega

end Count

namespace TreeLayout

variable {t : TreeLayout}

/-- Every node but the root is a child. -/
theorem sum_childCount (hpos : 0 < t.nodes) : ((List.range t.nodes).map t.childCount).sum + 1 = t.nodes := by
  have hroot : (List.range t.nodes).filter (fun node => t.parent node = none) = [0] := by
    obtain ⟨below, hbelow⟩ := Nat.exists_eq_add_one.2 hpos
    rw [hbelow, List.range_succ_eq_map, List.filter_cons_of_pos (by simp), List.filter_eq_nil_iff.2]
    intro node hnode
    obtain ⟨before, hbefore, rfl⟩ := List.mem_map.1 hnode
    obtain ⟨above, habove⟩ := exists_parent (t := t) (Nat.succ_ne_zero before)
      (hbelow ▸ Nat.succ_lt_succ (List.mem_range.1 hbefore))
    simp [habove]
  have hcount := sum_length_filter_add t.parent (List.range t.nodes) (List.nodup_range (n := t.nodes))
    fun node _ above habove => List.mem_range.2 (above_lt_nodes_of_parent habove)
  have hchildren : t.childCount = fun node => ((List.range t.nodes).filter fun n => t.parent n = some node).length := by
    funext node
    rw [childCount, children]
    simp only [Bool.beq_eq_decide_eq]
  rw [hroot, List.length_range] at hcount
  rw [hchildren]
  exact hcount

theorem sum_leafCount (h : ∀ leaf < t.leaves, t.leafNode leaf < t.nodes) :
    ((List.range t.nodes).map t.leafCount).sum = t.leaves := by
  have hcount := sum_length_filter_add (fun leaf => some (t.leafNode leaf)) (List.range t.leaves)
    (List.nodup_range (n := t.nodes)) (by
      rintro leaf hleaf _ ⟨rfl⟩
      exact List.mem_range.2 (h leaf (List.mem_range.1 hleaf)))
  have hleaves : t.leafCount = fun node => ((List.range t.leaves).filter fun n => t.leafNode n = node).length := by
    funext node
    rw [leafCount, leavesOf]
    simp only [Bool.beq_eq_decide_eq]
  rw [hleaves]
  simpa using hcount

end TreeLayout

namespace Plan

variable {p : Plan}

/-- A sum over all units, taken subgroup by subgroup. -/
theorem sum_units (f : MeshUnit → Nat) : (p.units.map f).sum =
    (p.subgroups.map fun x => f (.input x) + f (.threshold x) +
      ((List.range p.tree.nodes).map fun node => f (.sum x node)).sum +
      (p.subgroups.map fun y => f (.weight x y)).sum).sum := by
  rw [units, List.map_flatMap, List.flatMap_def, List.sum_flatten, List.map_map]
  refine congrArg List.sum (List.map_congr_left fun x _ => ?_)
  simp [unitsOf, Function.comp_def, Nat.add_assoc]

theorem sum_subgroups_const (p : Plan) (n : Nat) : (p.subgroups.map fun _ => n).sum = p.total * n := by
  rw [List.map_const', List.sum_replicate_nat, total]

theorem sum_units_eq {f : MeshUnit → Nat} (common : Nat) (own : Subgroup → Nat)
    (h : ∀ x ∈ p.subgroups, f (.input x) + f (.threshold x) +
      ((List.range p.tree.nodes).map fun node => f (.sum x node)).sum +
      (p.subgroups.map fun y => f (.weight x y)).sum = common + own x) :
    (p.units.map f).sum = p.total * common + (p.subgroups.map own).sum := by
  rw [sum_units, List.map_congr_left h, List.sum_map_add, sum_subgroups_const]

/-- The same where only the role of a unit matters. -/
theorem sum_units_role (f : UnitRole → Nat) : (p.units.map fun u => f u.role).sum =
    p.total * (f .input + f .threshold + p.tree.nodes * f .sum + p.total * f .weight) := by
  rw [sum_units_eq (f .input + f .threshold + p.tree.nodes * f .sum + p.total * f .weight) fun _ => 0]
  · rw [sum_subgroups_const, Nat.mul_zero, Nat.add_zero]
  · intro x _
    show f .input + f .threshold + ((List.range p.tree.nodes).map fun _ => f .sum).sum +
      (p.subgroups.map fun _ => f .weight).sum = _
    rw [sum_subgroups_const, List.map_const', List.sum_replicate_nat, List.length_range, Nat.add_zero]

theorem length_units_role (role : UnitRole) :
    (p.units.filter (·.role == role)).length = roleCount p.total p.tree.nodes role := by
  rw [length_filter_eq_sum, sum_units_role (fun other => if other == role then 1 else 0)]
  cases role <;> simp [roleCount]

theorem length_units : p.units.length = unitCount p.total p.tree.nodes := by
  have hsum := sum_units_role (p := p) fun _ => 1
  rw [List.map_const', List.sum_replicate_nat] at hsum
  simp only [Nat.mul_one, Nat.mul_add] at hsum
  rw [hsum, unitCount]
  omega

namespace Coherent

variable (hp : p.Coherent)
include hp

/-- Inputs within a tree: the leaves of all subgroups, and every node but the root. -/
theorem sum_treeInputs (x : Subgroup) :
    ((List.range p.tree.nodes).map fun node => p.treeInputs (.sum x node)).sum = p.total + (p.tree.nodes - 1) := by
  obtain ⟨maxLinks, htree⟩ := hp.tree_eq
  have hchildren := TreeLayout.sum_childCount hp.nodes_pos
  have hleaves : ((List.range p.tree.nodes).map p.tree.leafCount).sum = p.tree.leaves := by
    apply TreeLayout.sum_leafCount
    rw [htree]
    exact fun leaf => TreeLayout.leafNode_make_lt
  have htotal : p.tree.leaves = p.total := by rw [htree, TreeLayout.leaves_make]
  have hinputs : (fun node => p.treeInputs (.sum x node)) =
      fun node => p.tree.childCount node + p.tree.leafCount node := rfl
  rw [hinputs, List.sum_map_add]
  omega

/-- The first subgroup's root reports to no other. -/
theorem reportsTo_eq_none_iff {x first : Subgroup} (hx : x ∈ p.subgroups) (hfirst : first ∈ p.subgroups)
    (hgroup : first.group = p.firstGroup) (hzero : first.subgroup = 0) (root : UnitId) :
    p.reportsTo root x = none ↔ x = first := by
  unfold reportsTo
  constructor
  · intro h
    split at h
    · cases h
    · split at h
      · cases h
      · rename_i hown hsame
        exact hp.eq_of_place_eq hx hfirst ((not_not.1 hsame).trans hgroup.symm) ((not_not.1 hown).trans hzero.symm)
  · rintro rfl
    rw [if_neg (not_not.2 hzero), if_neg (not_not.2 hgroup)]

/-- All roots but the first report to another one. -/
theorem sum_siblingCount : (p.subgroups.map p.siblingCount).sum + 1 = p.total := by
  obtain ⟨first, hfirst, hgroup, hzero, hroot⟩ := hp.globalRoot_eq
  have hroots : (p.subgroups.map rootOf).Nodup :=
    List.Nodup.map_on (fun x hx y hy => hp.rootOf_inj hx hy) hp.nodup_subgroups
  have hcount := sum_length_filter_add (p.reportsTo (rootOf first)) p.subgroups hroots (by
    intro y hy target htarget
    obtain ⟨x, hx, rfl⟩ := hp.exists_root_of_report hy hroot htarget
    exact List.mem_map_of_mem hx)
  have hnone : (p.subgroups.filter fun y => p.reportsTo (rootOf first) y = none).length = 1 := by
    have hperm : (p.subgroups.filter fun y => p.reportsTo (rootOf first) y = none).Perm [first] := by
      refine (List.perm_ext_iff_of_nodup (hp.nodup_subgroups.filter _) (List.nodup_singleton _)).2 fun y => ?_
      rw [List.mem_filter, List.mem_singleton, decide_eq_true_iff]
      constructor
      · rintro ⟨hy, hnone⟩
        exact (hp.reportsTo_eq_none_iff hy hfirst hgroup hzero _).1 hnone
      · rintro rfl
        exact ⟨hfirst, (hp.reportsTo_eq_none_iff hfirst hfirst hgroup hzero _).2 rfl⟩
    exact hperm.length_eq
  have hreports : ∀ x ∈ p.subgroups, p.siblingCount x =
      (p.subgroups.filter fun y => p.reportsTo (rootOf first) y = some (rootOf x)).length := by
    intro x hx
    have hperm : (p.siblingRoots x).Perm
        ((p.subgroups.filter fun y => p.reportsTo (rootOf first) y = some (rootOf x)).map rootOf) := by
      refine (List.perm_ext_iff_of_nodup (nodup_siblingRoots x) (hroots.sublist (List.filter_sublist.map _))).2 ?_
      intro source
      rw [hp.mem_siblingRoots_iff hx hroot, List.mem_map]
      simp only [List.mem_filter, decide_eq_true_eq, and_assoc, eq_comm (a := source), and_comm (a := rootOf _ = _)]
    rw [← length_siblingRoots, hperm.length_eq, List.length_map]
  rw [hnone, List.map_map] at hcount
  rw [List.map_congr_left hreports]
  exact hcount

/-- All members of the stop chain but the first have a predecessor. -/
theorem sum_expectedDecisions :
    (p.subgroups.map fun x => p.expectedDecisions (.threshold x)).sum = p.stopChain.length - 1 := by
  have htail : p.stopChain.tail.Nodup := hp.nodup_stopChain.sublist (List.tail_sublist _)
  have hcount := sum_length_filter_add some p.stopChain.tail hp.nodup_subgroups (by
    rintro x hx _ ⟨rfl⟩
    exact (hp.mem_stopChain.1 (List.mem_of_mem_tail hx)).1)
  have hbefore (x : Subgroup) : (p.chainPredecessor x).isSome ↔ x ∈ p.stopChain.tail := by
    rw [Option.isSome_iff_exists, List.mem_iff_getElem?]
    simp only [hp.chainPredecessor_eq_some_iff, List.getElem?_tail]
    constructor
    · rintro ⟨_, i, _, hi⟩
      exact ⟨i, hi⟩
    · rintro ⟨i, hi⟩
      have hlt := (List.getElem?_eq_some_iff.1 hi).1
      exact ⟨_, i, List.getElem?_eq_getElem (by omega), hi⟩
  have hone : ∀ x ∈ p.subgroups, p.expectedDecisions (.threshold x) =
      (p.stopChain.tail.filter fun y => some y = some x).length := by
    intro x hx
    rw [hp.expectedDecisions_threshold hx]
    by_cases hmem : x ∈ p.stopChain.tail
    · obtain ⟨before, h⟩ := Option.isSome_iff_exists.1 ((hbefore x).2 hmem)
      have hcount := List.count_eq_one_of_mem htail hmem
      rw [List.count_eq_length_filter] at hcount
      simpa [h, Bool.beq_eq_decide_eq] using hcount.symm
    · have hnone : p.chainPredecessor x = none := by simpa using mt (hbefore x).1 hmem
      rw [hnone, List.filter_eq_nil_iff.2]
      · rfl
      · rintro y hy heq
        exact hmem (Option.some.inj (of_decide_eq_true heq) ▸ hy)
  rw [List.map_congr_left hone]
  simpa using hcount

theorem sum_expectedSiblings {x : Subgroup} (hx : x ∈ p.subgroups) :
    ((List.range p.tree.nodes).map fun node => p.expectedSiblings (.sum x node)).sum = p.siblingCount x := by
  simp only [hp.expectedSiblings_sum hx]
  rw [List.sum_map_eq_nsmul_single 0, List.count_eq_one_of_mem List.nodup_range (List.mem_range.2 hp.nodes_pos)]
  · simp
  · intro node hnode _
    rw [if_neg hnode]

/-- Inputs of a tree with those of its root from other trees. -/
theorem sum_sumSenders {x : Subgroup} (hx : x ∈ p.subgroups) {c : Category}
    (hc : c = .linkDeltaSum ∨ c = .syncGen) :
    ((List.range p.tree.nodes).map fun node => p.expectedSenders (.sum x node) c).sum =
      p.total + (p.tree.nodes - 1) + p.siblingCount x := by
  have hsenders : (fun node => p.expectedSenders (.sum x node) c) =
      fun node => p.treeInputs (.sum x node) + p.expectedSiblings (.sum x node) := by
    obtain rfl | rfl := hc <;> rfl
  rw [hsenders, List.sum_map_add, hp.sum_treeInputs, hp.sum_expectedSiblings hx]

/-- Pulses to the pairs of a subgroup, of which a self pair hears one root and any other two. -/
theorem sum_weightPulses {x : Subgroup} (hx : x ∈ p.subgroups) :
    (p.subgroups.map fun y => p.expectedSenders (.weight x y) .syncGen).sum + 1 = 2 * p.total := by
  have hsenders : ∀ y ∈ p.subgroups, p.expectedSenders (.weight x y) .syncGen = if x = y then 1 else 2 := by
    intro y hy
    show (if (MeshUnit.weight x y).isSelfPair then 1 else 2) = _
    simp only [hp.isSelfPair_weight hx hy]
  rw [List.map_congr_left hsenders, sum_except hp.nodup_subgroups hx 1, Nat.mul_comm, total]

theorem stopSenders_eq : p.stopSenders = if p.stopChain.length = 0 then 0 else 1 := by
  rw [stopSenders, hp.lastOutput_eq]
  cases p.stopChain <;> simp

/-- Decisions to all Threshold units: along the chain, and from its end to the others. -/
theorem sum_expectedStops : (p.subgroups.map fun x => p.expectedStops (.threshold x)).sum =
    p.stopChain.length - 1 + p.stopSenders * (p.total - 1) := by
  have hown {x : Subgroup} (hx : x ∈ p.subgroups) : p.subgroupOf (.threshold x) = some x := hp.subgroup?_of_mem hx
  rw [← hp.sum_expectedDecisions]
  cases hlast : p.lastOutput with
  | none =>
    have hstops : ∀ x ∈ p.subgroups, p.expectedStops (.threshold x) = p.expectedDecisions (.threshold x) := by
      intro x hx
      simp [expectedStops, hown hx, hlast]
    rw [List.map_congr_left hstops, stopSenders, hlast]
    simp
  | some last =>
    have hstops : ∀ x ∈ p.subgroups, p.expectedStops (.threshold x) =
        p.expectedDecisions (.threshold x) + if last = x then 0 else 0 + 1 := by
      intro x hx
      rw [expectedStops, hown hx, hlast]
      by_cases h : last = x <;> simp [isLastOutput, hlast, h]
    have hothers := sum_except hp.nodup_subgroups (hp.mem_of_lastOutput hlast) 0
    rw [List.map_congr_left hstops, List.sum_map_add, stopSenders, hlast, Option.isSome_some, if_pos rfl, total]
    omega

theorem sum_expectedSenders (c : Category) : (p.units.map (p.expectedSenders · c)).sum =
    edgeCount p.total p.tree.nodes p.stopChain.length c := by
  have hsiblings := hp.sum_siblingCount
  cases c with
  | forward | backprop =>
    rw [sum_units_eq (1 + 1 + (p.total + (p.tree.nodes - 1)) + p.total) fun _ => 0]
    · simp only [edgeCount, sum_subgroups_const, Nat.mul_add]
      omega
    · intro x _
      have hweights := sum_subgroups_const p 1
      have hsums := hp.sum_treeInputs x
      show 1 + 1 + ((List.range p.tree.nodes).map fun node => p.treeInputs (.sum x node)).sum +
        (p.subgroups.map fun _ => 1).sum = _
      omega
  | linkDeltaSum =>
    rw [sum_units_eq (p.total + (p.tree.nodes - 1) + p.total) p.siblingCount]
    · simp only [edgeCount, Nat.mul_add]
      omega
    · intro x hx
      have hweights := sum_subgroups_const p 1
      have hsums := hp.sum_sumSenders hx (c := .linkDeltaSum) (.inl rfl)
      show 0 + 0 + _ + (p.subgroups.map fun _ => 1).sum = _
      omega
  | syncGen =>
    rw [sum_units_eq (p.total + (p.tree.nodes - 1) + (2 * p.total - 1)) p.siblingCount]
    · have htwice : p.total * (2 * p.total - 1) = 2 * (p.total * p.total) - p.total := by
        rw [Nat.mul_sub, Nat.mul_one, Nat.mul_left_comm]
      have hsquare := Nat.le_mul_self p.total
      simp only [edgeCount, Nat.mul_add, htwice]
      omega
    · intro x hx
      have hweights := hp.sum_weightPulses hx
      have hsums := hp.sum_sumSenders hx (c := .syncGen) (.inr rfl)
      show 0 + 0 + _ + _ = _
      omega
  | stop =>
    rw [sum_units_eq (p.stopSenders + p.tree.nodes * p.stopSenders + p.total * p.stopSenders)
      fun x => p.expectedStops (.threshold x)]
    · rw [hp.sum_expectedStops, hp.stopSenders_eq, edgeCount, unitCount]
      split
      · omega
      · simp only [Nat.mul_add, Nat.mul_one]
        omega
    · intro x _
      show p.stopSenders + p.expectedStops (.threshold x) +
        ((List.range p.tree.nodes).map fun _ => p.stopSenders).sum +
        (p.subgroups.map fun _ => p.stopSenders).sum = _
      rw [sum_subgroups_const, List.map_const', List.sum_replicate_nat, List.length_range]
      omega

end Coherent

namespace Drawn

variable {g : Graph} (hg : p.Drawn g) (hp : p.Coherent)
include hg hp

theorem nodup_id : (g.units.toList.map (·.id)).Nodup := by
  rw [hg.units_eq]
  exact hp.nodup_ids

/-- Edges counted at the units where they arrive. -/
theorem length_category (c : Category) :
    (g.edges.toList.filter (·.category = c)).length = edgeCount p.total p.tree.nodes p.stopChain.length c := by
  have hcount := sum_length_filter_add (fun e : Edge => some e.target) (g.edges.toList.filter (·.category = c))
    (hg.nodup_id hp) (by
      rintro e he _ ⟨rfl⟩
      have hedge := Array.mem_toList_iff.1 (List.mem_of_mem_filter he)
      rw [hg.units_eq]
      exact (hp.ends_mem (hg.wired_of_mem hedge)).2)
  have hunits : ∀ u ∈ g.units.toList,
      ((g.edges.toList.filter (·.category = c)).filter fun e => some e.target = some u.id).length =
        p.expectedSenders u c := by
    intro u hu
    have hin : (g.edges.toList.filter (·.category = c)).filter (fun e => some e.target = some u.id) =
        g.inEdges u.id c := by
      rw [List.filter_filter, Graph.inEdges]
      simp only [Option.some.injEq]
    rw [hin, ← distinctSenders_eq_length (hg.realizes.nodup_sources u.id c)]
    exact (hg.senders_eq_and_packets_eq hp (Array.mem_toList_iff.1 hu) c).1
  have hnone : (g.edges.toList.filter (·.category = c)).filter (fun e : Edge => some e.target = none) = [] := by
    simp
  rw [hnone, List.map_map] at hcount
  rw [← hp.sum_expectedSenders c, ← hg.units_eq, ← List.map_congr_left hunits]
  exact hcount.symm

theorem sized : g.Sized p.total p.tree.nodes p.stopChain.length where
  units_of_role role := by
    rw [Graph.unitsWithRole, hg.units_eq]
    exact length_units_role role
  size_units := by
    rw [← Array.length_toList, hg.units_eq]
    exact length_units
  nodup_text := hg.nodup_texts hp
  nodup_key := hg.realizes.nodup_key
  edges_of_category := hg.length_category hp
  size_edges := by
    have hcategories : Category.all.Nodup := by decide
    have hcount := sum_length_filter_add (fun e : Edge => some e.category) g.edges.toList hcategories
      fun _ _ c _ => Category.mem_all c
    simp only [Option.some.injEq, hg.length_category hp] at hcount
    simpa using hcount.symm

end Drawn

end Plan

namespace Topology

variable {t : Topology} {limits : Limits} {compiled : CompiledGraph}

theorem Sound.length_stopChain {p : Plan} (ht : t.Sound) (hchain : t.ChainsOutputs)
    (h : Plan.make t limits = .ok p) : p.stopChain.length = t.outputSubgroups.length := by
  have hpath := congrArg List.length (ht.stopPath_eq hchain h)
  simpa only [Plan.stopPath, stopPath, List.length_map] using hpath

/-- A compiled graph is as large as its topology says, has no unit and no edge twice, and is
reported as it is. -/
theorem Reachable.size_spec (ht : t.Reachable) (h : compile t limits = .ok compiled) :
    compiled.graph.Sized t.totalSubgroups (TreeLayout.make t.totalSubgroups limits.maxSumLinks).nodes
      t.outputSubgroups.length ∧
    compiled.report =
      { subgroups := t.totalSubgroups
        weightUnits := (compiled.graph.unitsWithRole .weight).length
        sumUnits := (compiled.graph.unitsWithRole .sum).length
        ioUnits := (compiled.graph.unitsWithRole .input).length + (compiled.graph.unitsWithRole .threshold).length
        edges := compiled.graph.edges.size
        stopChain := t.outputSubgroups.length } := by
  obtain ⟨p, hplan, _⟩ := bind_eq_ok_iff.1 h
  obtain ⟨g, hcompile, hg⟩ := ht.sound.compile_eq hplan
  cases h.symm.trans hcompile
  obtain ⟨_, _, hfields⟩ := Plan.make_eq_ok_iff.1 hplan
  have htotal : p.total = t.totalSubgroups := by
    rw [hfields, Plan.total, length_enumerateSubgroups, totalSubgroups, Numeric.total_eq_sum]
  have htree : p.tree = TreeLayout.make t.totalSubgroups limits.maxSumLinks := by
    rw [← htotal, hfields]
    rfl
  have hchain := ht.sound.length_stopChain ht.chainsOutputs hplan
  have hsized := hg.sized (ht.sound.coherent hplan)
  rw [htotal, htree, hchain] at hsized
  refine ⟨hsized, ?_⟩
  simp only [Plan.report, hsized.units_of_role, roleCount, htotal, htree, hchain, Nat.two_mul]

/-- The bias and an output group of three units in two parts: three subgroups, two of them outputs. -/
theorem size_spec_output : ∃ t grown id compiled, make 2 = .ok t ∧
    t.addGroup 3 (Roles.ofList [.output]) none none none = .ok (id, grown) ∧
    compile grown {} = .ok compiled ∧ compiled.graph.Sized 3 1 2 ∧ compiled.report.edges = 112 := by
  obtain ⟨t, grown, id, p, hmake, hadd, hplan, htotal, hnodes, houtputs⟩ : ∃ t grown id p, make 2 = .ok t ∧
      t.addGroup 3 (Roles.ofList [.output]) none none none = .ok (id, grown) ∧ Plan.make grown {} = .ok p ∧
      grown.totalSubgroups = 3 ∧ (TreeLayout.make 3 ({} : Limits).maxSumLinks).nodes = 1 ∧
      grown.outputSubgroups.length = 2 := ⟨_, _, _, _, rfl, rfl, rfl, by decide, by decide, by decide⟩
  have ht : Reachable grown := .addGroup (.make hmake) hadd
  obtain ⟨g, hcompile, _⟩ := ht.sound.compile_eq hplan
  obtain ⟨hsized, hreport⟩ := Reachable.size_spec ht hcompile
  rw [htotal, hnodes, houtputs] at hsized
  refine ⟨t, grown, id, _, hmake, hadd, hcompile, hsized, ?_⟩
  rw [hreport]
  exact hsized.size_edges.trans (by decide)

end Topology

end PerceptronMesh

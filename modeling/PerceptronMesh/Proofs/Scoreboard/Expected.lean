import PerceptronMesh.Proofs.Compile.Senders
import PerceptronMesh.Scoreboard.Expected

/-!
The senders of a unit have no repeats, and they are as many, and send as many packets, as
the scoreboards expect from the plan alone.
-/

namespace PerceptronMesh.Plan

/-- The senders of one unit in one category, with their packets, as wired and as expected. -/
structure Hears (p : Plan) (u : MeshUnit) (c : Category) (senders : List (UnitId × UInt32)) : Prop where
  nodup : (senders.map (·.1)).Nodup
  mem_iff : ∀ source packets,
    (source, packets) ∈ senders ↔ p.Wired (p.units.map (·.id)) source u.id c packets
  length_eq : senders.length = p.expectedSenders u c
  packets_eq : Numeric.total (senders.map (·.2)) = p.expectedPackets u c

variable {p : Plan}

/-- A unit that gets one packet from each sender. -/
theorem hears_of_ids {u : MeshUnit} {c : Category} {ids : List UnitId} (hnodup : ids.Nodup)
    (hiff : ∀ source packets,
      p.Wired (p.units.map (·.id)) source u.id c packets ↔ source ∈ ids ∧ packets = 1)
    (hlength : ids.length = p.expectedSenders u c) (hcount : ¬(u.role = .sum ∧ c = .linkDeltaSum)) :
    p.Hears u c (ids.map fun id => (id, 1)) where
  nodup := by simpa [Function.comp_def] using hnodup
  mem_iff := by
    intro source packets
    rw [hiff]
    simp only [List.mem_map, Prod.mk.injEq, ↓existsAndEq, true_and, eq_comm (a := (1 : UInt32))]
  length_eq := by simpa using hlength
  packets_eq := by
    rw [expectedPackets, if_neg hcount, ← hlength, Numeric.total_words]
    simp [Function.comp_def]

theorem nodup_stopSender : p.stopSender.Nodup := by
  unfold stopSender
  cases p.lastOutput <;> simp

theorem length_stopSender : p.stopSender.length = p.stopSenders := by
  unfold stopSender stopSenders
  cases p.lastOutput <;> simp

theorem expectedDecisions_le_one (u : MeshUnit) : p.expectedDecisions u ≤ 1 := by
  unfold expectedDecisions
  split_ifs <;> simp

theorem length_siblingRoots (x : Subgroup) : (p.siblingRoots x).length = p.siblingCount x := by
  unfold siblingRoots siblingCount
  dsimp only
  split
  · rfl
  · split <;> simp

theorem nodup_siblingRoots (x : Subgroup) : (p.siblingRoots x).Nodup := by
  have hown : ((List.range (p.subgroupCount x.group - 1)).map fun s =>
      UnitId.sum x.group (s + 1) 0).Nodup :=
    List.nodup_range.map fun a b hab => Nat.succ.inj (UnitId.sum.inj hab).2.1
  have hothers : ((List.range (p.groupCount - 1)).map fun g => UnitId.sum (g + 1) 0 0).Nodup :=
    List.nodup_range.map fun a b hab => Nat.succ.inj (UnitId.sum.inj hab).1
  unfold siblingRoots
  split
  · exact List.nodup_nil
  · split
    · exact List.nodup_append.2 ⟨hown, hothers, by simp⟩
    · simpa using hown

namespace Coherent

variable (hp : p.Coherent)
include hp

theorem length_leavesAt (node : Nat) : (p.leavesAt node).length = p.tree.leafCount node := by
  obtain ⟨maxLinks, htree⟩ := hp.tree_eq
  have hleaves : p.tree.leaves = p.total := by rw [htree, TreeLayout.leaves_make]
  have hmap : (p.leavesAt node).map (·.index) = p.tree.leavesOf node := by
    rw [leavesAt, TreeLayout.leavesOf, hleaves, ← hp.index_eq, List.filter_map]
    rfl
  rw [TreeLayout.leafCount, ← hmap, List.length_map]

theorem nodup_sumSenders {x : Subgroup} (hx : x ∈ p.subgroups) (node : Nat) (c : Category) :
    ((p.sumSenders x node c).map (·.1)).Nodup := by
  have hleaves : ((p.leavesAt node).map fun y => leafSender x y c).Nodup := by
    refine List.Nodup.map_on ?_ (hp.nodup_subgroups.filter _)
    intro a ha b hb hab
    have ha := List.mem_of_mem_filter ha
    have hb := List.mem_of_mem_filter hb
    cases c with
    | backprop => exact (hp.weightOf_inj ha hx hb hx hab).1
    | forward | linkDeltaSum | syncGen | stop => exact (hp.weightOf_inj hx ha hx hb hab).2
  have hchildren : ((p.tree.children node).map (UnitId.sum x.group x.subgroup)).Nodup :=
    TreeLayout.nodup_children.map fun a b hab => (UnitId.sum.inj hab).2.2
  have hsiblings : (p.siblingSenders x node c).Nodup := by
    unfold siblingSenders
    split
    · exact nodup_siblingRoots x
    · exact List.nodup_nil
  have hnoLeaf (y : Subgroup) (group subgroup child : Nat) :
      leafSender x y c ≠ .sum group subgroup child := by
    cases c <;> simp [leafSender, weightOf]
  -- siblings are roots, and a child is none
  have hroot : ∀ id ∈ p.siblingSenders x node c, ∃ group subgroup, id = .sum group subgroup 0 := by
    intro id hid
    unfold siblingSenders siblingRoots at hid
    grind
  have hbelow : ∀ a ∈ (p.tree.children node).map (UnitId.sum x.group x.subgroup),
      ∀ b ∈ p.siblingSenders x node c, a ≠ b := by
    intro a ha b hb hab
    obtain ⟨child, hchild, rfl⟩ := List.mem_map.1 ha
    obtain ⟨_, _, rfl⟩ := hroot b hb
    obtain ⟨_, _, rfl⟩ := UnitId.sum.inj hab
    simp at hchild
  simp only [sumSenders, List.map_append, List.map_map, Function.comp_def, List.map_id']
  refine List.nodup_append.2 ⟨hleaves, List.nodup_append.2 ⟨hchildren, hsiblings, hbelow⟩, ?_⟩
  intro a ha b hb hab
  obtain ⟨y, _, rfl⟩ := List.mem_map.1 ha
  rcases List.mem_append.1 hb with hchild | hsibling
  · obtain ⟨child, _, rfl⟩ := List.mem_map.1 hchild
    exact hnoLeaf y _ _ _ hab
  · obtain ⟨_, _, rfl⟩ := hroot b hsibling
    exact hnoLeaf y _ _ _ hab

theorem nodup_weightSenders {x y : Subgroup} (hx : x ∈ p.subgroups) (hy : y ∈ p.subgroups)
    (c : Category) : (p.weightSenders x y c).Nodup := by
  cases c with
  | forward | backprop => exact List.nodup_singleton _
  | linkDeltaSum =>
    show p.globalRoot.toList.Nodup
    cases p.globalRoot <;> simp
  | syncGen =>
    simp only [weightSenders]
    by_cases hxy : x = y
    · rw [if_pos hxy]
      exact List.nodup_singleton _
    · rw [if_neg hxy]
      have hroots : rootOf x ≠ rootOf y := fun h => hxy (hp.rootOf_inj hx hy h)
      simpa only [List.nodup_cons, List.mem_singleton, List.not_mem_nil, not_false_eq_true,
        List.nodup_nil, and_true] using hroots
  | stop => exact nodup_stopSender

theorem isSelfPair_weight {x y : Subgroup} (hx : x ∈ p.subgroups) (hy : y ∈ p.subgroups) :
    (MeshUnit.weight x y).isSelfPair ↔ x = y := by
  simp only [MeshUnit.isSelfPair, MeshUnit.weight, decide_eq_true_eq, Option.some.injEq, Prod.mk.injEq]
  constructor
  · rintro ⟨hgroup, hsubgroup⟩
    exact hp.eq_of_place_eq hx hy hgroup.symm hsubgroup.symm
  · rintro rfl
    exact ⟨rfl, rfl⟩

/-- A pair hears the roots of both its subgroups, which for a self pair are one. -/
theorem hears_weight {x y : Subgroup} (hx : x ∈ p.subgroups) (hy : y ∈ p.subgroups) (c : Category) :
    p.Hears (.weight x y) c ((p.weightSenders x y c).map fun id => (id, 1)) := by
  refine hears_of_ids (hp.nodup_weightSenders hx hy c) (fun _ _ => hp.wired_weight_iff hx hy) ?_
    (by simp [MeshUnit.weight])
  cases c with
  | forward | backprop => rfl
  | linkDeltaSum =>
    obtain ⟨first, _, _, _, hroot⟩ := hp.globalRoot_eq
    simp [weightSenders, hroot, expectedSenders, MeshUnit.weight]
  | syncGen =>
    have hself := hp.isSelfPair_weight hx hy
    show (if x = y then [rootOf x] else [rootOf x, rootOf y]).length =
      if (MeshUnit.weight x y).isSelfPair then 1 else 2
    by_cases hxy : x = y
    · rw [if_pos hxy, if_pos (hself.2 hxy)]
      rfl
    · rw [if_neg hxy, if_neg (mt hself.1 hxy)]
      rfl
  | stop => exact length_stopSender

theorem hears_input {x : Subgroup} (hx : x ∈ p.subgroups) (c : Category) :
    p.Hears (.input x) c ((p.inputSenders x c).map fun id => (id, 1)) := by
  refine hears_of_ids ?_ (fun _ _ => hp.wired_input_iff hx) ?_ (by simp [MeshUnit.input])
  · cases c with
    | forward | backprop => exact List.nodup_singleton _
    | linkDeltaSum | syncGen => exact List.nodup_nil
    | stop => exact nodup_stopSender
  · cases c with
    | forward | backprop | linkDeltaSum | syncGen => rfl
    | stop => exact length_stopSender

/-- The chain predecessor and the last output are two senders of stop decisions. -/
theorem nodup_thresholdSenders {x : Subgroup} (c : Category) : (p.thresholdSenders x c).Nodup := by
  cases c with
  | forward | backprop => exact List.nodup_singleton _
  | linkDeltaSum | syncGen => exact List.nodup_nil
  | stop =>
    simp only [thresholdSenders]
    refine List.nodup_append.2 ⟨?_, ?_, ?_⟩
    · cases p.chainPredecessor x <;> simp
    · split
      · exact nodup_stopSender
      · exact List.nodup_nil
    · intro a ha b hb hab
      subst hab
      obtain ⟨before, hbefore, rfl⟩ := List.mem_map.1 ha
      have hbefore := Option.mem_toList.1 hbefore
      split at hb
      · simp only [stopSender, Option.mem_toList, Option.map_eq_some_iff] at hb
        obtain ⟨last, hlast, hsame⟩ := hb
        obtain ⟨i, hi, _⟩ := hp.chainPredecessor_eq_some_iff.1 hbefore
        obtain rfl := hp.thresholdOf_inj (hp.mem_of_lastOutput hlast) (hp.mem_of_stopChain hi) hsame
        exact hp.chainPredecessor_ne_last hlast hbefore
      · cases hb

theorem expectedDecisions_threshold {x : Subgroup} (hx : x ∈ p.subgroups) :
    p.expectedDecisions (.threshold x) = (p.chainPredecessor x).toList.length := by
  have hown : p.subgroupOf (.threshold x) = some x := hp.subgroup?_of_mem hx
  rw [expectedDecisions, if_neg (by simp [MeshUnit.threshold]), hown, Option.bind_some]
  cases p.chainPredecessor x <;> rfl

theorem hears_threshold {x : Subgroup} (hx : x ∈ p.subgroups) (c : Category) :
    p.Hears (.threshold x) c ((p.thresholdSenders x c).map fun id => (id, 1)) := by
  refine hears_of_ids (hp.nodup_thresholdSenders c) (fun _ _ => hp.wired_threshold_iff hx) ?_
    (by simp [MeshUnit.threshold])
  cases c with
  | forward | backprop | linkDeltaSum | syncGen => rfl
  | stop =>
    have hown : p.subgroupOf (.threshold x) = some x := hp.subgroup?_of_mem hx
    have hbroadcast : (if p.lastOutput.isSome && !p.isLastOutput x then p.stopSender else []).length =
        if p.lastOutput.isSome && !p.isLastOutput x then 1 else 0 := by
      split
      · rename_i hcond
        rw [length_stopSender, stopSenders, if_pos (Bool.and_eq_true_iff.1 hcond).1]
      · rfl
    show (p.thresholdSenders x .stop).length = p.expectedStops (.threshold x)
    rw [thresholdSenders, List.length_append, List.length_map, hbroadcast, expectedStops, hown,
      hp.expectedDecisions_threshold hx]

theorem expectedSiblings_sum {x : Subgroup} (hx : x ∈ p.subgroups) (node : Nat) :
    p.expectedSiblings (.sum x node) = if node = 0 then p.siblingCount x else 0 := by
  have hown : p.subgroupOf (.sum x node) = some x := hp.subgroup?_of_mem hx
  unfold expectedSiblings
  rw [hown]
  by_cases hnode : node = 0
  · simp [MeshUnit.sum, hnode]
  · simp [MeshUnit.sum, hnode]

theorem length_siblingSenders {x : Subgroup} (hx : x ∈ p.subgroups) (node : Nat) {c : Category}
    (hc : c = .linkDeltaSum ∨ c = .syncGen) :
    (p.siblingSenders x node c).length = p.expectedSiblings (.sum x node) := by
  rw [hp.expectedSiblings_sum hx, siblingSenders]
  by_cases hnode : node = 0
  · rw [if_pos ⟨hnode, hc⟩, if_pos hnode, length_siblingRoots]
  · rw [if_neg (fun h => hnode h.1), if_neg hnode]
    rfl

/-- A leaf sends one packet a unit for link deltas, everyone else sends one. -/
theorem hears_sum {x : Subgroup} (hx : x ∈ p.subgroups) (node : Nat) {c : Category} (hc : c ∈ summed) :
    p.Hears (.sum x node) c (p.sumSenders x node c) := by
  have hlength : (p.sumSenders x node c).length =
      p.tree.leafCount node + (p.tree.childCount node + (p.siblingSenders x node c).length) := by
    simp [sumSenders, hp.length_leavesAt, TreeLayout.childCount]
  have hpackets : Numeric.total ((p.sumSenders x node c).map (·.2)) =
      .ofNat (p.tree.leafCount node) * leafPackets x c +
        .ofNat (p.tree.childCount node + (p.siblingSenders x node c).length) := by
    have hsum : (((p.sumSenders x node c).map (·.2)).map UInt32.toNat).sum =
        p.tree.leafCount node * (leafPackets x c).toNat +
          (p.tree.childCount node + (p.siblingSenders x node c).length) := by
      simp [sumSenders, hp.length_leavesAt, TreeLayout.childCount, Function.comp_def]
    rw [Numeric.total_words, hsum, UInt32.ofNat_add, UInt32.ofNat_mul, UInt32.ofNat_toNat]
  have hinputs : p.treeInputs (.sum x node) = p.tree.childCount node + p.tree.leafCount node := rfl
  have hsenders : (p.sumSenders x node c).length = p.expectedSenders (.sum x node) c := by
    rw [hlength]
    cases c with
    | forward | backprop =>
      show _ = p.treeInputs (.sum x node)
      simp only [siblingSenders, hinputs, reduceCtorEq, or_self, and_false, if_false, List.length_nil]
      omega
    | linkDeltaSum | syncGen =>
      show _ = p.treeInputs (.sum x node) + p.expectedSiblings (.sum x node)
      rw [hp.length_siblingSenders hx node (by simp), hinputs]
      omega
    | stop => simp [summed] at hc
  refine ⟨hp.nodup_sumSenders hx node c, fun _ _ => (hp.wired_sum_iff hx hc).symm, hsenders, ?_⟩
  rw [hpackets]
  by_cases hdelta : c = .linkDeltaSum
  · subst hdelta
    show _ = UInt32.ofNat (p.tree.leafCount node) * .ofNat x.units + .ofNat (p.tree.childCount node) +
      .ofNat (p.expectedSiblings (.sum x node))
    rw [hp.length_siblingSenders hx node (.inl rfl), UInt32.ofNat_add, UInt32.add_assoc, leafPackets]
  · have hone : leafPackets x c = 1 := by
      cases c <;> first | rfl | exact absurd rfl hdelta
    rw [hone, UInt32.mul_one, ← UInt32.ofNat_add, ← hlength, hsenders, expectedPackets,
      if_neg (fun h => hdelta h.2)]

/-- Every unit hears in every category what the scoreboard expects. -/
theorem exists_hears {u : MeshUnit} (hu : p.HasUnit u) (c : Category) : ∃ senders, p.Hears u c senders := by
  cases hu with
  | weight hx hy => exact ⟨_, hp.hears_weight hx hy c⟩
  | input hx => exact ⟨_, hp.hears_input hx c⟩
  | threshold hx => exact ⟨_, hp.hears_threshold hx c⟩
  | @sum x node hx hnode =>
    by_cases hc : c ∈ summed
    · exact ⟨_, hp.hears_sum hx node hc⟩
    · obtain rfl := category_eq_stop hc
      refine ⟨_, hears_of_ids nodup_stopSender (fun _ _ => ?_) length_stopSender (by simp)⟩
      exact wired_stop_iff_broadcast (HasUnit.sum hx hnode).id_mem (by simp [MeshUnit.sum, thresholdOf])

end Coherent

end PerceptronMesh.Plan

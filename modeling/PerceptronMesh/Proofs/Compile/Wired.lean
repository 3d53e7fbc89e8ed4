import PerceptronMesh.Compile.Wiring
import PerceptronMesh.Proofs.Partition.Plan

/-!
Which connections a plan asks for, as a relation. Each rule of `Plan.Wired` is one kind of
connection, and `Plan.mem_wires_iff` finds these in the list that is wired.
-/

namespace PerceptronMesh.Plan

/-- A connection between two units of a plan, with its category and packets. -/
inductive Wired (p : Plan) (units : List UnitId) : UnitId → UnitId → Category → UInt32 → Prop
  | activation {x y : Subgroup} : x ∈ p.subgroups → y ∈ p.subgroups →
      Wired p units (thresholdOf y) (weightOf x y) .forward 1
  | weighted {x y : Subgroup} : x ∈ p.subgroups → y ∈ p.subgroups →
      Wired p units (weightOf x y) (p.leafOf x y) .forward 1
  | derivative {x y : Subgroup} : x ∈ p.subgroups → y ∈ p.subgroups →
      Wired p units (inputOf x) (weightOf x y) .backprop 1
  /-- Backward a Weight unit reports to the tree of its source. -/
  | weightedBack {x y : Subgroup} : x ∈ p.subgroups → y ∈ p.subgroups →
      Wired p units (weightOf x y) (p.leafOf y x) .backprop 1
  | delta {x y : Subgroup} : x ∈ p.subgroups → y ∈ p.subgroups →
      Wired p units (weightOf x y) (p.leafOf x y) .linkDeltaSum (.ofNat x.units)
  | scale {x y : Subgroup} {root : UnitId} : x ∈ p.subgroups → y ∈ p.subgroups →
      p.globalRoot = some root → Wired p units root (weightOf x y) .linkDeltaSum 1
  | pulse {x y : Subgroup} : x ∈ p.subgroups → y ∈ p.subgroups →
      Wired p units (weightOf x y) (p.leafOf x y) .syncGen 1
  | releaseTarget {x y : Subgroup} : x ∈ p.subgroups → y ∈ p.subgroups →
      Wired p units (rootOf x) (weightOf x y) .syncGen 1
  | releaseSource {x y : Subgroup} : x ∈ p.subgroups → y ∈ p.subgroups →
      Wired p units (rootOf y) (weightOf x y) .syncGen 1
  | netInput {x : Subgroup} : x ∈ p.subgroups → Wired p units (rootOf x) (inputOf x) .forward 1
  | output {x : Subgroup} : x ∈ p.subgroups → Wired p units (inputOf x) (thresholdOf x) .forward 1
  | errorBack {x : Subgroup} : x ∈ p.subgroups → Wired p units (thresholdOf x) (inputOf x) .backprop 1
  | sumBack {x : Subgroup} : x ∈ p.subgroups → Wired p units (rootOf x) (thresholdOf x) .backprop 1
  | branch {x : Subgroup} {node above : Nat} {c : Category} : x ∈ p.subgroups →
      p.tree.parent node = some above → c ∈ summed →
      Wired p units (.sum x.group x.subgroup node) (.sum x.group x.subgroup above) c 1
  | sibling {x : Subgroup} {root target : UnitId} {c : Category} : x ∈ p.subgroups →
      p.globalRoot = some root → p.reportsTo root x = some target → c = .linkDeltaSum ∨ c = .syncGen →
      Wired p units (rootOf x) target c 1
  | decision {x y : Subgroup} {i : Nat} : p.stopChain[i]? = some x → p.stopChain[i + 1]? = some y →
      Wired p units (thresholdOf x) (thresholdOf y) .stop 1
  | broadcast {last : Subgroup} {target : UnitId} : p.lastOutput = some last → target ∈ units →
      target ≠ thresholdOf last → Wired p units (thresholdOf last) target .stop 1

variable {p : Plan} {units : List UnitId} {w : Wire}

theorem mem_pairWires {x y : Subgroup} :
    w ∈ p.pairWires x y ↔
      w = ⟨thresholdOf y, weightOf x y, .forward, 1⟩ ∨ w = ⟨weightOf x y, p.leafOf x y, .forward, 1⟩ ∨
      w = ⟨inputOf x, weightOf x y, .backprop, 1⟩ ∨ w = ⟨weightOf x y, p.leafOf y x, .backprop, 1⟩ ∨
      w = ⟨weightOf x y, p.leafOf x y, .linkDeltaSum, .ofNat x.units⟩ ∨
      (∃ root, p.globalRoot = some root ∧ w = ⟨root, weightOf x y, .linkDeltaSum, 1⟩) ∨
      w = ⟨weightOf x y, p.leafOf x y, .syncGen, 1⟩ ∨ w = ⟨rootOf x, weightOf x y, .syncGen, 1⟩ ∨
      w = ⟨rootOf y, weightOf x y, .syncGen, 1⟩ := by
  simp only [pairWires, List.mem_append, List.mem_cons, List.not_mem_nil, or_false, List.mem_map,
    Option.mem_toList, or_assoc, eq_comm (a := w)]

theorem mem_weightWires :
    w ∈ p.weightWires ↔ ∃ x ∈ p.subgroups, ∃ y ∈ p.subgroups, w ∈ p.pairWires x y := by
  simp only [weightWires, weightPairs, List.mem_flatMap, List.mem_map]
  constructor
  · rintro ⟨_, ⟨x, hx, y, hy, rfl⟩, hw⟩
    exact ⟨x, hx, y, hy, hw⟩
  · rintro ⟨x, hx, y, hy, hw⟩
    exact ⟨(x, y), ⟨x, hx, y, hy, rfl⟩, hw⟩

theorem mem_treeWires :
    w ∈ p.treeWires ↔ ∃ x ∈ p.subgroups, ∃ node above c, p.tree.parent node = some above ∧ c ∈ summed ∧
      w = ⟨.sum x.group x.subgroup node, .sum x.group x.subgroup above, c, 1⟩ := by
  simp only [treeWires, List.mem_flatMap, List.mem_range]
  constructor
  · rintro ⟨x, hx, node, _, hw⟩
    split at hw
    · cases hw
    · rename_i above habove
      obtain ⟨c, hc, rfl⟩ := List.mem_map.1 hw
      exact ⟨x, hx, node, above, c, habove, hc, rfl⟩
  · rintro ⟨x, hx, node, above, c, habove, hc, rfl⟩
    refine ⟨x, hx, node, TreeLayout.lt_nodes_of_parent habove, ?_⟩
    rw [habove]
    exact List.mem_map.2 ⟨c, hc, rfl⟩

theorem mem_siblingWires :
    w ∈ p.siblingWires ↔ ∃ x ∈ p.subgroups, ∃ root target c, p.globalRoot = some root ∧
      p.reportsTo root x = some target ∧ (c = .linkDeltaSum ∨ c = .syncGen) ∧
      w = ⟨rootOf x, target, c, 1⟩ := by
  unfold siblingWires
  split
  · rename_i hnone
    simp [hnone]
  · rename_i root hroot
    simp only [List.mem_flatMap]
    constructor
    · rintro ⟨x, hx, hw⟩
      split at hw
      · cases hw
      · rename_i target htarget
        simp only [List.mem_cons, List.not_mem_nil, or_false] at hw
        obtain rfl | rfl := hw
        · exact ⟨x, hx, root, target, _, hroot, htarget, .inl rfl, rfl⟩
        · exact ⟨x, hx, root, target, _, hroot, htarget, .inr rfl, rfl⟩
    · rintro ⟨x, hx, other, target, c, hother, htarget, hc, rfl⟩
      cases hroot.symm.trans hother
      refine ⟨x, hx, ?_⟩
      rw [htarget]
      obtain rfl | rfl := hc <;> simp

theorem mem_chainWires {chain : List Subgroup} :
    w ∈ chainWires chain ↔ ∃ (i : Nat) (x y : Subgroup), chain[i]? = some x ∧ chain[i + 1]? = some y ∧
      w = ⟨thresholdOf x, thresholdOf y, .stop, 1⟩ := by
  induction chain with
  | nil => simp [chainWires]
  | cons first rest ih =>
    cases rest with
    | nil => simp [chainWires]
    | cons second rest =>
      rw [chainWires, List.mem_cons, ih]
      constructor
      · rintro (rfl | ⟨i, x, y, hx, hy, rfl⟩)
        · exact ⟨0, first, second, rfl, rfl, rfl⟩
        · exact ⟨i + 1, x, y, hx, hy, rfl⟩
      · rintro ⟨i, x, y, hx, hy, rfl⟩
        cases i with
        | zero =>
          cases hx
          cases hy
          exact .inl rfl
        | succ i => exact .inr ⟨i, x, y, hx, hy, rfl⟩

theorem mem_broadcastWires :
    w ∈ p.broadcastWires units ↔ ∃ last target, p.lastOutput = some last ∧ target ∈ units ∧
      target ≠ thresholdOf last ∧ w = ⟨thresholdOf last, target, .stop, 1⟩ := by
  unfold broadcastWires
  split
  · rename_i hnone
    simp [hnone]
  · rename_i last hlast
    simp only [List.mem_map, List.mem_filter, decide_eq_true_eq]
    constructor
    · rintro ⟨target, ⟨hmem, hne⟩, rfl⟩
      exact ⟨last, target, hlast, hmem, hne, rfl⟩
    · rintro ⟨other, target, hother, hmem, hne, rfl⟩
      cases hlast.symm.trans hother
      exact ⟨target, ⟨hmem, hne⟩, rfl⟩

/-- The wires of a plan are the ones its rules give. -/
theorem mem_wires_iff :
    w ∈ p.wires units ↔ p.Wired units w.source w.target w.category w.packets := by
  simp only [wires, List.mem_append, or_assoc, mem_weightWires, mem_pairWires, subgroupWires,
    List.mem_flatMap, List.mem_cons, List.not_mem_nil, or_false, mem_treeWires, mem_siblingWires,
    mem_chainWires, mem_broadcastWires]
  constructor
  · rintro (⟨x, hx, y, hy, hpair⟩ | ⟨x, hx, hown⟩ | ⟨x, hx, node, above, c, habove, hc, rfl⟩ |
      ⟨x, hx, root, target, c, hroot, htarget, hc, rfl⟩ | ⟨i, x, y, hi, hnext, rfl⟩ |
      ⟨last, target, hlast, hmem, hne, rfl⟩)
    · obtain rfl | rfl | rfl | rfl | rfl | ⟨root, hroot, rfl⟩ | rfl | rfl | rfl := hpair
      · exact .activation hx hy
      · exact .weighted hx hy
      · exact .derivative hx hy
      · exact .weightedBack hx hy
      · exact .delta hx hy
      · exact .scale hx hy hroot
      · exact .pulse hx hy
      · exact .releaseTarget hx hy
      · exact .releaseSource hx hy
    · obtain rfl | rfl | rfl | rfl := hown
      · exact .netInput hx
      · exact .output hx
      · exact .errorBack hx
      · exact .sumBack hx
    · exact .branch hx habove hc
    · exact .sibling hx hroot htarget hc
    · exact .decision hi hnext
    · exact .broadcast hlast hmem hne
  · obtain ⟨source, target, category, packets⟩ := w
    intro h
    cases h with
    | scale hx hy hroot =>
      exact .inl ⟨_, hx, _, hy, .inr (.inr (.inr (.inr (.inr (.inl ⟨_, hroot, rfl⟩)))))⟩
    | delta hx hy => exact .inl ⟨_, hx, _, hy, .inr (.inr (.inr (.inr (.inl rfl))))⟩
    | activation hx hy | weighted hx hy | derivative hx hy | weightedBack hx hy | pulse hx hy | releaseTarget hx hy | releaseSource hx hy => 
      exact .inl ⟨_, hx, _, hy, by simp [thresholdOf, inputOf, rootOf, weightOf, leafOf]⟩
    | netInput hx | output hx | errorBack hx | sumBack hx =>
      exact .inr (.inl ⟨_, hx, by simp [thresholdOf, inputOf, rootOf]⟩)
    | branch hx habove hc => exact .inr (.inr (.inl ⟨_, hx, _, _, _, habove, hc, rfl⟩))
    | sibling hx hroot htarget hc =>
      exact .inr (.inr (.inr (.inl ⟨_, hx, _, _, _, hroot, htarget, hc, rfl⟩)))
    | decision hi hnext => exact .inr (.inr (.inr (.inr (.inl ⟨_, _, _, hi, hnext, rfl⟩))))
    | broadcast hlast hmem hne => exact .inr (.inr (.inr (.inr (.inr ⟨_, _, hlast, hmem, hne, rfl⟩))))

end PerceptronMesh.Plan

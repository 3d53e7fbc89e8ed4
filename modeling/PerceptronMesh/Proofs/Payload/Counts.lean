import PerceptronMesh.Proofs.Compile.Parted
import PerceptronMesh.Proofs.Compile.StopChain
import PerceptronMesh.Proofs.Payload.Records
import PerceptronMesh.Proofs.Payload.Weights

/-!
What Core regions tell units of their wiring. They are read as the units read them: field by field in
the order of the layout, with padding passed over. The numbers that a Weight or Sum unit waits for are
computed from the plan; here they are found again in the edges of the compiled graph, and the flags of
Sum units in who they report to.
-/

namespace PerceptronMesh

open Wire Fixed

/-- The record that bytes hold, read by the kinds of its fields. -/
def Wire.decode {α : Type} (kinds : List Kind) (ofFields : List Field → Option α) (data : List UInt8) : Option α :=
  match fieldsInPlace kinds (.ofBytes data) with
  | .ok fields _ => ofFields fields
  | .error _ _ => none

theorem Wire.Layout.decode_encode {α : Type} {fields : α → List Field} {kinds : List Kind}
    (h : Layout fields kinds) {ofFields : List Field → Option α} (record : α) :
    decode kinds ofFields (encode (fields record)) = ofFields (fields record) := by
  have hread := fieldsInPlace_encode (h.ofKinds record) 0 []
  rw [List.append_nil] at hread
  rw [decode, Reader.ofBytes, hread]

theorem flag_ne_zero (b : Bool) : ((if b then 1 else 0 : UInt8) != 0) = b := by
  cases b <;> rfl

namespace WeightCore

def ofFields : List Field → Option WeightCore
  | [.u32 rows, .u32 columns, .fixed .activation initOutput, .fixed .shortFpreal learningRate,
      .fixed .shortFpreal weightDecay, .fixed .shortFpreal momentum, .pad _,
      .u32 forward, .u32 backprop, .u32 linkDeltas, .u32 syncs, .u32 stops] =>
    some {
      rows, columns, initOutput, learningRate, weightDecay, momentum
      expected := fun
        | .forward => forward
        | .backprop => backprop
        | .linkDeltaSum => linkDeltas
        | .syncGen => syncs
        | .stop => stops }
  | _ => none

def decode (core : List UInt8) : Option WeightCore := Wire.decode kinds ofFields core

theorem decode_bytes (c : WeightCore) : decode c.bytes = some c := by
  have hexpected : (fun
      | .forward => c.expected .forward
      | .backprop => c.expected .backprop
      | .linkDeltaSum => c.expected .linkDeltaSum
      | .syncGen => c.expected .syncGen
      | .stop => c.expected .stop : CategoryWords) = c.expected := by
    funext category
    cases category <;> rfl
  refine (layout.decode_encode c).trans ?_
  show some { c with expected := _ } = some c
  rw [hexpected]

end WeightCore

namespace SumCore

def ofFields : List Field → Option SumCore
  | [.u32 units, .u32 forward, .u32 backprop, .u32 linkDeltas, .u32 syncs, .u32 siblings,
      .u8 isFirstGroup, .u8 isTreeRoot, .u8 isFirstRoot, .pad _] =>
    some {
      units, forward, backprop, linkDeltas, syncs, siblings
      isFirstGroup := isFirstGroup != 0
      isTreeRoot := isTreeRoot != 0
      isFirstRoot := isFirstRoot != 0 }
  | _ => none

def decode (core : List UInt8) : Option SumCore := Wire.decode kinds ofFields core

theorem decode_bytes (c : SumCore) : decode c.bytes = some c := by
  refine (layout.decode_encode c).trans ?_
  simp only [fields, Field.flag, ofFields, flag_ne_zero]

end SumCore

namespace Graph

variable (g : Graph)

/-- Whether an identifier is that of a Sum unit in a unit's own subgroup. -/
def sharesTree (u : MeshUnit) (id : UnitId) : Bool :=
  (g.unit? id).any fun v => v.role = .sum && v.group = u.group && v.subgroup = u.subgroup

/-- Whether a unit reports to a Sum unit of its own subgroup. -/
def hasParent (u : MeshUnit) : Bool := g.edges.any fun e => e.source = u.id && g.sharesTree u e.target

/-- Whether an identifier is that of the root of another subgroup's tree. -/
def isOtherRoot (u : MeshUnit) (id : UnitId) : Bool :=
  (g.unit? id).any fun v => v.role = .sum && !g.hasParent v && !(v.group = u.group && v.subgroup = u.subgroup)

/-- The numbers in a Weight unit's Core region are those of its senders. -/
def TellsWeight (u : MeshUnit) (core : WeightCore) : Prop :=
  ∀ c, (core.expected c).toNat = distinctSenders (g.inEdges u.id c)

/-- The numbers, as words, and the flags in a Sum unit's Core region are those of its wiring. Packets
are told as they are where all of them together fit a word. -/
structure TellsSum (u : MeshUnit) (core : SumCore) : Prop where
  forward : core.forward = .ofNat (distinctSenders (g.inEdges u.id .forward))
  backprop : core.backprop = .ofNat (distinctSenders (g.inEdges u.id .backprop))
  linkDeltas : core.linkDeltas = Numeric.total ((g.inEdges u.id .linkDeltaSum).map (·.packets))
  linkDeltas_toNat : ((g.inEdges u.id .linkDeltaSum).map (·.packets.toNat)).sum < Nat.pow 2 32 →
    core.linkDeltas.toNat = ((g.inEdges u.id .linkDeltaSum).map (·.packets.toNat)).sum
  syncs : core.syncs = .ofNat (distinctSenders (g.inEdges u.id .syncGen))
  siblings : core.siblings =
    .ofNat (distinctSenders ((g.inEdges u.id .syncGen).filter fun e => g.isOtherRoot u e.source))
  isTreeRoot : core.isTreeRoot ↔ ¬ g.hasParent u
  isFirstRoot : core.isFirstRoot ↔ ∃ e ∈ g.outEdges u.id .linkDeltaSum, g.hasRole .weight e.target

variable {g}

theorem hasParent_iff {u : MeshUnit} :
    g.hasParent u ↔ ∃ e ∈ g.edges, e.source = u.id ∧ g.sharesTree u e.target := by
  simp only [hasParent, Array.any_eq_true', Bool.and_eq_true, decide_eq_true_eq]

end Graph

namespace PayloadSource

variable {s : PayloadSource} {u : MeshUnit}

theorem isFirstRoot_sumCore : (s.sumCore u).isFirstRoot ↔
    u.group = s.compiled.plan.firstGroup ∧ u.subgroup = 0 ∧ u.treeNode = some 0 := by
  simp [sumCore, and_assoc]

theorem coreRegion_sum {x : Subgroup} {node : Nat} {g : Group} (hg : s.topology.group? x.group = some g) :
    s.coreRegion (.sum x node) = .ok (s.sumCore (.sum x node)).bytes := by
  have hown : s.topology.group (MeshUnit.sum x node).group = .ok g := Topology.group_eq_ok_iff.2 hg
  exact bind_eq_ok_iff.2 ⟨g, hown, rfl⟩

/-- The unit's Core region, which all its payloads hold, reads as a record. -/
def CoreReads {α : Type} (s : PayloadSource) (u : MeshUnit) (decode : List UInt8 → Option α)
    (Tells : α → Prop) : Prop :=
  ∃ core record, s.coreRegion u = .ok core ∧ decode core = some record ∧ Tells record ∧
    ∀ stage p, s.build u stage = .ok p → p.region? .core = some core

theorem coreReads {α : Type} {decode : List UInt8 → Option α} {Tells : α → Prop} {core : List UInt8}
    {record : α} (hcore : s.coreRegion u = .ok core) (hdecode : decode core = some record) (htells : Tells record) :
    s.CoreReads u decode Tells := by
  exact ⟨core, record, hcore, hdecode, htells, fun _ _ hbuild => core_of_build hcore hbuild⟩

end PayloadSource

namespace Plan

variable {p : Plan}

theorem expectedSenders_weight_le (x y : Subgroup) (c : Category) : p.expectedSenders (.weight x y) c ≤ 2 := by
  cases c with
  | forward | backprop | linkDeltaSum => exact Nat.le_succ 1
  | syncGen =>
    show (if (MeshUnit.weight x y).isSelfPair then 1 else 2) ≤ 2
    split <;> omega
  | stop =>
    show p.stopSenders ≤ 2
    unfold stopSenders
    split <;> omega

namespace Coherent

variable (hp : p.Coherent)
include hp

/-- A root is no sibling of itself. -/
theorem ne_of_mem_siblingRoots {x y : Subgroup} (hx : x ∈ p.subgroups) (hy : y ∈ p.subgroups)
    (h : rootOf y ∈ p.siblingRoots x) : y ≠ x := by
  rintro rfl
  obtain ⟨z, hz, hsame, hreport⟩ := (hp.mem_siblingRoots_iff hy hp.globalRoot_eq_zero).1 h
  obtain rfl := hp.rootOf_inj hy hz hsame
  obtain ⟨hzero, ⟨hlater, _⟩ | ⟨_, hother, hfirst⟩⟩ :=
    (hp.reportsTo_root_iff hy hy hp.globalRoot_eq_zero).1 hreport
  · exact hlater hzero
  · exact hother hfirst

end Coherent

namespace Drawn

variable {g : Graph} (hg : p.Drawn g) (hp : p.Coherent)
include hg hp

theorem sharesTree_sum_iff {x : Subgroup} (hx : x ∈ p.subgroups) (node : Nat) {id : UnitId} :
    g.sharesTree (.sum x node) id ↔ ∃ other < p.tree.nodes, id = .sum x.group x.subgroup other :=
  hg.inTree_iff hp hx

/-- All nodes but the root have a parent in their tree. -/
theorem hasParent_sum_iff {x : Subgroup} (hx : x ∈ p.subgroups) {node : Nat} (hnode : node < p.tree.nodes) :
    g.hasParent (.sum x node) ↔ node ≠ 0 := by
  rw [Graph.hasParent_iff]
  constructor
  · rintro ⟨e, he, hsource, htarget⟩ rfl
    obtain ⟨other, _, htarget⟩ := (hg.sharesTree_sum_iff hp hx 0).1 htarget
    have hsource : e.source = rootOf x := hsource
    have hwired := hg.wired_of_mem he
    rw [hsource, htarget] at hwired
    by_cases hc : e.category ∈ summed
    · rw [hp.wired_sum_iff hx hc, mem_sumSenders] at hwired
      obtain ⟨y, _, _, hleaf, _⟩ | ⟨⟨child, hchild, hsame⟩ | hsibling, _⟩ := hwired
      · exact leafSender_ne_sum _ _ _ _ _ hleaf.symm
      · obtain ⟨_, _, rfl⟩ := UnitId.sum.inj hsame
        rw [TreeLayout.parent_zero] at hchild
        cases hchild
      · exact hp.ne_of_mem_siblingRoots hx hx (mem_siblingSenders.1 hsibling).2.2 rfl
    · rw [category_eq_stop hc, wired_stop_iff] at hwired
      obtain ⟨_, ⟨_, _, _, _, _, hsame, _⟩ | ⟨_, _, hsame, _⟩⟩ := hwired <;> cases hsame
  · intro hpos
    obtain ⟨above, habove⟩ := TreeLayout.exists_parent hpos hnode
    have hwired : p.Wired (p.units.map (·.id)) (.sum x.group x.subgroup node) (.sum x.group x.subgroup above)
      .forward 1 := .branch hx habove (by simp [summed])
    obtain ⟨e, he, hsource, htarget, _⟩ := hg.exists_edge_of_wired hwired
    refine ⟨e, he, hsource, (hg.sharesTree_sum_iff hp hx node).2 ?_⟩
    exact ⟨above, TreeLayout.above_lt_nodes_of_parent habove, htarget⟩

theorem isOtherRoot_iff {x : Subgroup} (hx : x ∈ p.subgroups) (node : Nat) {id : UnitId} :
    g.isOtherRoot (.sum x node) id ↔ ∃ y ∈ p.subgroups, y ≠ x ∧ id = rootOf y := by
  simp only [Graph.isOtherRoot, Option.any_eq_true, hg.unit?_eq_some_iff hp, Bool.and_eq_true,
    decide_eq_true_eq, Bool.not_eq_true', Bool.and_eq_false_iff, decide_eq_false_iff_not]
  constructor
  · rintro ⟨v, ⟨hv, rfl⟩, ⟨hrole, hroot⟩, hother⟩
    cases hv with
    | @sum y other hy hlt =>
      refine ⟨y, hy, ?_, ?_⟩
      · rintro rfl
        obtain hgroup | hsubgroup := hother
        · exact hgroup rfl
        · exact hsubgroup rfl
      · have hzero : other = 0 := by
          by_contra hpos
          rw [(hg.hasParent_sum_iff hp hy hlt).2 hpos] at hroot
          cases hroot
        rw [hzero]
        rfl
    | input | threshold | weight => cases hrole
  · rintro ⟨y, hy, hne, rfl⟩
    refine ⟨.sum y 0, ⟨.sum hy hp.nodes_pos, rfl⟩, ⟨rfl, ?_⟩, ?_⟩
    · rw [Bool.eq_false_iff]
      exact fun hparent => (hg.hasParent_sum_iff hp hy hp.nodes_pos).1 hparent rfl
    · by_contra hsame
      obtain ⟨hgroup, hsubgroup⟩ := not_or.1 hsame
      exact hne (hp.eq_of_place_eq hy hx (not_not.1 hgroup) (not_not.1 hsubgroup))

/-- Of what a node takes in, only its siblings are roots of other subgroups. -/
theorem filter_otherRoots {x : Subgroup} (hx : x ∈ p.subgroups) (node : Nat) (c : Category) :
    ((p.sumSenders x node c).map (·.1)).filter (g.isOtherRoot (.sum x node)) = p.siblingSenders x node c := by
  have hleaves : ((p.leavesAt node).map fun y => leafSender x y c).filter (g.isOtherRoot (.sum x node)) = [] := by
    refine List.filter_eq_nil_iff.2 ?_
    intro id hid hroot
    obtain ⟨y, _, rfl⟩ := List.mem_map.1 hid
    obtain ⟨z, _, _, hsame⟩ := (hg.isOtherRoot_iff hp hx node).1 hroot
    exact leafSender_ne_sum _ _ _ _ _ hsame
  have hchildren : ((p.tree.children node).map (UnitId.sum x.group x.subgroup)).filter
      (g.isOtherRoot (.sum x node)) = [] := by
    refine List.filter_eq_nil_iff.2 ?_
    intro id hid hroot
    obtain ⟨child, _, rfl⟩ := List.mem_map.1 hid
    obtain ⟨z, hz, hne, hsame⟩ := (hg.isOtherRoot_iff hp hx node).1 hroot
    obtain ⟨hgroup, hsubgroup, _⟩ := UnitId.sum.inj hsame
    exact hne (hp.eq_of_place_eq hz hx hgroup.symm hsubgroup.symm)
  have hsiblings : (p.siblingSenders x node c).filter (g.isOtherRoot (.sum x node)) = p.siblingSenders x node c := by
    refine List.filter_eq_self.2 ?_
    intro id hid
    obtain ⟨_, _, hid⟩ := mem_siblingSenders.1 hid
    obtain ⟨y, hy, rfl, _⟩ := (hp.mem_siblingRoots_iff hx hp.globalRoot_eq_zero).1 hid
    exact (hg.isOtherRoot_iff hp hx node).2 ⟨y, hy, hp.ne_of_mem_siblingRoots hx hy hid, rfl⟩
  simp only [sumSenders, List.map_append, List.map_map, Function.comp_def, List.map_id', List.filter_append,
    hleaves, hchildren, hsiblings, List.nil_append]

/-- Of the pulses that a node hears, those of its siblings come from roots of other subgroups. -/
theorem distinctSenders_otherRoots {x : Subgroup} (hx : x ∈ p.subgroups) (node : Nat) :
    distinctSenders ((g.inEdges (MeshUnit.sum x node).id .syncGen).filter fun e =>
      g.isOtherRoot (.sum x node) e.source) = p.expectedSiblings (.sum x node) := by
  have hnodup : (((g.inEdges (MeshUnit.sum x node).id .syncGen).filter fun e =>
      g.isOtherRoot (.sum x node) e.source).map (·.source)).Nodup :=
    (hg.realizes.nodup_sources _ _).sublist (List.filter_sublist.map _)
  have hperm : ((g.inEdges (MeshUnit.sum x node).id .syncGen).map (·.source)).Perm
      ((p.sumSenders x node .syncGen).map (·.1)) := by
    simpa only [List.map_map, Function.comp_def] using
      (hg.inEdges_perm (hp.hears_sum hx node (c := .syncGen) (by decide))).map (·.1)
  have hlength := (hperm.filter (g.isOtherRoot (.sum x node))).length_eq
  rw [hg.filter_otherRoots hp hx, List.filter_map, List.length_map,
    hp.length_siblingSenders hx node (.inr rfl)] at hlength
  rw [distinctSenders_eq_length hnodup]
  exact hlength

/-- Only the first of all roots sends link deltas to Weight units. -/
theorem sendsScale_iff {id : UnitId} :
    (∃ e ∈ g.outEdges id .linkDeltaSum, g.hasRole .weight e.target) ↔ id = .sum 0 0 0 := by
  constructor
  · rintro ⟨e, hout, hweight⟩
    obtain ⟨he, rfl, hcategory⟩ := Graph.Realizes.mem_outEdges.1 hout
    obtain ⟨x, hx, y, hy, htarget⟩ := (hg.hasRole_weight_iff hp).1 hweight
    have hwired := hg.wired_of_mem he
    rw [htarget, hcategory] at hwired
    obtain ⟨hsource, _⟩ := (hp.wired_weight_iff hx hy).1 hwired
    rw [weightSenders, hp.globalRoot_eq_zero] at hsource
    exact List.mem_singleton.1 hsource
  · rintro rfl
    obtain ⟨x, hx, _⟩ := hp.exists_first
    have hwired : p.Wired (p.units.map (·.id)) (.sum 0 0 0) (weightOf x x) .linkDeltaSum 1 :=
      .scale hx hx hp.globalRoot_eq_zero
    obtain ⟨e, he, hsource, htarget, hcategory⟩ := hg.exists_edge_of_wired hwired
    exact ⟨e, Graph.Realizes.mem_outEdges.2 ⟨he, hsource, hcategory⟩,
      (hg.hasRole_weight_iff hp).2 ⟨x, hx, x, hx, htarget⟩⟩

theorem scaleSources_eq {x y : Subgroup} (hx : x ∈ p.subgroups) (hy : y ∈ p.subgroups) :
    (g.inEdges (MeshUnit.weight x y).id .linkDeltaSum).map (·.source) = [.sum 0 0 0] := by
  have hperm := (hg.inEdges_perm (hp.hears_weight hx hy .linkDeltaSum)).map (·.1)
  simp only [List.map_map, Function.comp_def, List.map_id', weightSenders, hp.globalRoot_eq_zero] at hperm
  exact List.perm_singleton.1 hperm

theorem firstRoot_mem : ∃ root ∈ g.units, root.role = .sum ∧ root.id = .sum 0 0 0 := by
  obtain ⟨first, hfirst, _, hgroup, hsubgroup⟩ := hp.exists_first
  refine ⟨.sum first 0, hg.mem_units_iff.2 (.sum hfirst hp.nodes_pos), rfl, ?_⟩
  rw [MeshUnit.sum, hgroup, hsubgroup]
  rfl

omit hp in
/-- No unit has more senders than there are units. -/
theorem distinctSenders_le (id : UnitId) (c : Category) : distinctSenders (g.inEdges id c) ≤ g.units.size := by
  have hnodup := hg.realizes.nodup_sources id c
  have hsubset : (g.inEdges id c).map (·.source) ⊆ g.units.toList.map (·.id) := by
    intro source hsource
    obtain ⟨e, he, rfl⟩ := List.mem_map.1 hsource
    obtain ⟨u, hu, hid⟩ := Graph.contains_iff.1 (hg.contains_source (Graph.Realizes.mem_inEdges.1 he).1)
    exact List.mem_map.2 ⟨u, Array.mem_toList_iff.2 hu, hid⟩
  rw [distinctSenders_eq_length hnodup]
  simpa using (List.subperm_of_subset hnodup hsubset).length_le

theorem tellsWeight {s : PayloadSource} (hplan : s.compiled.plan = p) {x y : Subgroup} (hx : x ∈ p.subgroups)
    (hy : y ∈ p.subgroups) (target source : Group) :
    g.TellsWeight (.weight x y) (s.weightCore target source y.subgroup (.weight x y)) := by
  intro c
  obtain ⟨hsenders, _⟩ := hg.senders_eq_and_packets_eq hp (hg.mem_units_iff.2 (.weight hx hy)) c
  rw [hsenders]
  show (UInt32.ofNat (s.compiled.plan.expectedSenders (.weight x y) c)).toNat = _
  rw [hplan]
  exact UInt32.toNat_ofNat_of_lt' (Nat.lt_of_le_of_lt (expectedSenders_weight_le x y c) (by decide))

theorem tellsSum {s : PayloadSource} (hplan : s.compiled.plan = p) {x : Subgroup} (hx : x ∈ p.subgroups)
    {node : Nat} (hnode : node < p.tree.nodes) : g.TellsSum (.sum x node) (s.sumCore (.sum x node)) := by
  subst hplan
  have hu := hg.mem_units_iff.2 (.sum hx hnode)
  have hsenders (c : Category) := (hg.senders_eq_and_packets_eq hp hu c).1
  have hpackets := (hg.senders_eq_and_packets_eq hp hu .linkDeltaSum).2
  exact {
    forward := congrArg UInt32.ofNat (hsenders .forward).symm
    backprop := congrArg UInt32.ofNat (hsenders .backprop).symm
    linkDeltas := hpackets.symm
    linkDeltas_toNat := fun hfit => (hg.packets_toNat hp hu hfit).symm
    syncs := congrArg UInt32.ofNat (hsenders .syncGen).symm
    siblings := congrArg UInt32.ofNat (hg.distinctSenders_otherRoots hp hx node).symm
    isTreeRoot := by
      rw [hg.hasParent_sum_iff hp hx hnode]
      simp [PayloadSource.sumCore, MeshUnit.sum]
    isFirstRoot := by
      rw [hg.sendsScale_iff hp, PayloadSource.isFirstRoot_sumCore]
      show x.group = 0 ∧ x.subgroup = 0 ∧ some node = some 0 ↔ UnitId.sum x.group x.subgroup node = .sum 0 0 0
      rw [UnitId.sum.injEq, Option.some.injEq] }

end Drawn

end Plan

namespace Topology

variable {t : Topology} {limits : Limits} {compiled : CompiledGraph}

end Topology

end PerceptronMesh

import PerceptronMesh.Proofs.Compile.Audit
import PerceptronMesh.Proofs.Compile.Climb

/-!
Reduction in a compiled graph. Every subgroup's tree takes in one message of each of its
Weight units, and the message has exactly one path to the root of the tree, and for link
deltas and pulses to the global root: nothing is lost and nothing is counted twice.
-/

namespace PerceptronMesh

namespace Graph

variable (g : Graph)

/-- Whether a unit of the graph has a role. -/
def hasRole (role : UnitRole) (id : UnitId) : Bool := (g.unit? id).any (·.role = role)

/-- Whether a unit is a node of a subgroup's tree. -/
def inTree (sg : Subgroup) (id : UnitId) : Bool :=
  (g.unit? id).any fun u => u.role = .sum && u.group = sg.group && u.subgroup = sg.subgroup

/-- Edges of a category that lead from a unit to Sum units. -/
def sumEdges (id : UnitId) (c : Category) : List Edge :=
  (g.outEdges id c).filter fun e => g.hasRole .sum e.target

/-- Edges of a category that lead from Weight units into a subgroup's tree. -/
def leafEdges (sg : Subgroup) (c : Category) : List Edge :=
  g.edges.toList.filter fun e => e.category = c && g.hasRole .weight e.source && g.inTree sg e.target

/-- The way of a message from a unit over Sum units. -/
inductive SumPath (c : Category) : UnitId → List Edge → UnitId → Prop
  | nil {id : UnitId} : SumPath c id [] id
  | cons {a b : UnitId} {e : Edge} {path : List Edge} :
      e ∈ g.sumEdges a c → SumPath c e.target path b → SumPath c a (e :: path) b

end Graph

namespace Plan.Drawn

variable {p : Plan} {g : Graph} (hg : p.Drawn g) (hp : p.Coherent) {c : Category}
include hg

include hp in
theorem unit?_eq_some_iff {id : UnitId} {u : MeshUnit} :
    g.unit? id = some u ↔ p.HasUnit u ∧ u.id = id := by
  have hfound {v : MeshUnit} (h : g.unit? id = some v) : p.HasUnit v ∧ v.id = id :=
    ⟨hg.mem_units_iff.1 (Array.mem_of_find?_eq_some h), by simpa using Array.find?_some h⟩
  constructor
  · exact hfound
  · rintro ⟨hu, rfl⟩
    have hcontains := Graph.contains_iff.2 ⟨u, hg.mem_units_iff.2 hu, rfl⟩
    obtain ⟨v, hv⟩ := Option.isSome_iff_exists.1 hcontains
    obtain ⟨hunit, hid⟩ := hfound hv
    rw [hv, List.inj_on_of_nodup_map hp.nodup_ids (Plan.mem_units_iff.2 hunit) (Plan.mem_units_iff.2 hu) hid]

include hp in
theorem hasRole_iff {role : UnitRole} {id : UnitId} :
    g.hasRole role id ↔ ∃ u, p.HasUnit u ∧ u.id = id ∧ u.role = role := by
  simp only [Graph.hasRole, Option.any_eq_true, hg.unit?_eq_some_iff hp, decide_eq_true_eq, and_assoc]

include hp in
theorem hasRole_sum_iff {id : UnitId} :
    g.hasRole .sum id ↔ ∃ x ∈ p.subgroups, ∃ node < p.tree.nodes, id = .sum x.group x.subgroup node := by
  rw [hg.hasRole_iff hp]
  constructor
  · rintro ⟨u, hu, rfl, hrole⟩
    cases hu with
    | @sum x node hx hnode => exact ⟨x, hx, node, hnode, rfl⟩
    | input | threshold | weight => cases hrole
  · rintro ⟨x, hx, node, hnode, rfl⟩
    exact ⟨_, .sum hx hnode, rfl, rfl⟩

include hp in
theorem hasRole_weight_iff {id : UnitId} :
    g.hasRole .weight id ↔ ∃ x ∈ p.subgroups, ∃ y ∈ p.subgroups, id = weightOf x y := by
  rw [hg.hasRole_iff hp]
  constructor
  · rintro ⟨u, hu, rfl, hrole⟩
    cases hu with
    | @weight x y hx hy => exact ⟨x, hx, y, hy, rfl⟩
    | input | threshold | sum => cases hrole
  · rintro ⟨x, hx, y, hy, rfl⟩
    exact ⟨_, .weight hx hy, rfl, rfl⟩

include hp in
theorem inTree_iff {sg : Subgroup} (hsg : sg ∈ p.subgroups) {id : UnitId} :
    g.inTree sg id ↔ ∃ node < p.tree.nodes, id = .sum sg.group sg.subgroup node := by
  simp only [Graph.inTree, Option.any_eq_true, hg.unit?_eq_some_iff hp, Bool.and_eq_true,
    decide_eq_true_eq]
  constructor
  · rintro ⟨u, ⟨hu, rfl⟩, ⟨hrole, hgroup⟩, hsubgroup⟩
    cases hu with
    | @sum x node hx hnode => exact ⟨node, hnode, by rw [← hgroup, ← hsubgroup]; rfl⟩
    | input | threshold | weight => cases hrole
  · rintro ⟨node, hnode, rfl⟩
    exact ⟨_, ⟨.sum hsg hnode, rfl⟩, ⟨rfl, rfl⟩, rfl⟩

omit hg in
theorem mem_sumEdges {id : UnitId} {e : Edge} :
    e ∈ g.sumEdges id c ↔ e ∈ g.edges ∧ e.source = id ∧ e.category = c ∧ g.hasRole .sum e.target := by
  simp only [Graph.sumEdges, List.mem_filter, Graph.Realizes.mem_outEdges, and_assoc]

include hp in
/-- Edges to Sum units are steps towards a root. -/
theorem climb_of_mem_sumEdges (hc : c ∈ summed) {id : UnitId} {e : Edge} (h : e ∈ g.sumEdges id c) :
    p.Climb c id e.target := by
  obtain ⟨he, rfl, rfl, hrole⟩ := mem_sumEdges.1 h
  obtain ⟨x, hx, node, _, htarget⟩ := (hg.hasRole_sum_iff hp).1 hrole
  have hwired := hg.wired_of_mem he
  simp only [htarget, hp.wired_sum_iff hx hc, mem_sumSenders] at hwired
  rw [htarget]
  obtain ⟨y, hy, rfl, hsource, _⟩ | ⟨⟨child, hchild, hsource⟩ | hsibling, _⟩ := hwired
  · exact hsource ▸ .leaf hx hy
  · exact hsource ▸ .branch hx hchild
  · obtain ⟨hzero, hcategory, hroots⟩ := mem_siblingSenders.1 hsibling
    obtain ⟨y, hy, hsource, hreport⟩ := (hp.mem_siblingRoots_iff hx hp.globalRoot_eq_zero).1 hroots
    rw [hsource, hzero]
    exact .sibling hx hy hp.globalRoot_eq_zero hreport hcategory

include hp in
theorem exists_sumEdge_of_climb (hc : c ∈ summed) {a b : UnitId} (h : p.Climb c a b) :
    ∃ e ∈ g.sumEdges a c, e.target = b := by
  have hedge {packets : UInt32} (hwired : p.Wired (p.units.map (·.id)) a b c packets)
      (hsum : g.hasRole .sum b) : ∃ e ∈ g.sumEdges a c, e.target = b := by
    obtain ⟨e, he, rfl, rfl, rfl⟩ := hg.exists_edge_of_wired hwired
    exact ⟨e, mem_sumEdges.2 ⟨he, rfl, rfl, hsum⟩, rfl⟩
  have hnode {x : Subgroup} {node : Nat} (hx : x ∈ p.subgroups) (hlt : node < p.tree.nodes) :
      g.hasRole .sum (.sum x.group x.subgroup node) :=
    (hg.hasRole_sum_iff hp).2 ⟨x, hx, node, hlt, rfl⟩
  cases h with
  | @leaf x y hx hy =>
    refine hedge ((hp.wired_sum_iff hx hc).2 (mem_sumSenders.2 (.inl ⟨y, hy, rfl, rfl, rfl⟩))) ?_
    exact hnode hx (hp.leafNode_lt hy)
  | branch hx habove =>
    exact hedge (.branch hx habove hc) (hnode hx (TreeLayout.above_lt_nodes_of_parent habove))
  | sibling hx hy hroot hreport hcategory =>
    exact hedge (.sibling hy hroot hreport hcategory) (hnode hx hp.nodes_pos)

include hp in
theorem eq_of_mem_sumEdges (hc : c ∈ summed) {id : UnitId} {e other : Edge} (h : e ∈ g.sumEdges id c)
    (hother : other ∈ g.sumEdges id c) : e = other := by
  have htarget := hp.climb_functional (hg.climb_of_mem_sumEdges hp hc h)
    (hg.climb_of_mem_sumEdges hp hc hother)
  obtain ⟨he, hsource, hcategory, _⟩ := mem_sumEdges.1 h
  obtain ⟨hothers, hosource, hocategory, _⟩ := mem_sumEdges.1 hother
  apply hg.realizes.eq_of_key_eq he hothers
  simp only [Edge.key, hsource, hosource, htarget, hcategory, hocategory]

include hp in
/-- The step from a unit is its one edge to a Sum unit. -/
theorem sumEdges_of_climb (hc : c ∈ summed) {a b : UnitId} (h : p.Climb c a b) :
    ∃ e, g.sumEdges a c = [e] ∧ e.target = b := by
  obtain ⟨e, he, htarget⟩ := hg.exists_sumEdge_of_climb hp hc h
  refine ⟨e, ?_, htarget⟩
  have hnodup : (g.sumEdges a c).Nodup := (hg.realizes.nodup_edges.filter _).filter _
  rw [← List.perm_singleton, List.perm_ext_iff_of_nodup hnodup (List.nodup_singleton e)]
  intro other
  rw [List.mem_singleton]
  constructor
  · exact fun hother => hg.eq_of_mem_sumEdges hp hc hother he
  · rintro rfl
    exact he

include hp in
theorem sumEdges_eq_nil (hc : c ∈ summed) {id : UnitId} (h : ∀ b, ¬p.Climb c id b) :
    g.sumEdges id c = [] := by
  rw [List.eq_nil_iff_forall_not_mem]
  intro e he
  exact h _ (hg.climb_of_mem_sumEdges hp hc he)

include hp in
theorem climbRank_le_of_sumPath (hc : c ∈ summed) {a b : UnitId} {path : List Edge}
    (h : g.SumPath c a path b) : p.climbRank b ≤ p.climbRank a := by
  induction h with
  | nil => exact Nat.le_refl _
  | cons he _ ih =>
    exact Nat.le_of_lt (Nat.lt_of_le_of_lt ih (hp.climbRank_lt (hg.climb_of_mem_sumEdges hp hc he)))

include hp in
/-- Two paths between the same units are one: no unit has two ways on, and ranks forbid
coming back to where a path was. -/
theorem sumPath_unique (hc : c ∈ summed) {a b : UnitId} {path other : List Edge}
    (h : g.SumPath c a path b) (hother : g.SumPath c a other b) : path = other := by
  have hforward {a b : UnitId} {e : Edge} {path : List Edge} (he : e ∈ g.sumEdges a c)
      (hrest : g.SumPath c e.target path b) : a ≠ b := by
    rintro rfl
    have hlt := hp.climbRank_lt (hg.climb_of_mem_sumEdges hp hc he)
    have hle := hg.climbRank_le_of_sumPath hp hc hrest
    omega
  induction h generalizing other with
  | nil =>
    cases hother with
    | nil => rfl
    | cons he hrest => exact absurd rfl (hforward he hrest)
  | cons he hrest ih =>
    cases hother with
    | nil => exact absurd rfl (hforward he hrest)
    | cons hnext hothers =>
      obtain rfl := hg.eq_of_mem_sumEdges hp hc he hnext
      rw [ih hothers]

include hp in
theorem existsUnique_sumPath (hc : c ∈ summed) {a b : UnitId}
    (h : Relation.ReflTransGen (p.Climb c) a b) : ∃! path, g.SumPath c a path b := by
  have hexists : ∃ path, g.SumPath c a path b := by
    induction h using Relation.ReflTransGen.head_induction_on with
    | refl => exact ⟨[], .nil⟩
    | head hstep _ ih =>
      obtain ⟨e, he, rfl⟩ := hg.exists_sumEdge_of_climb hp hc hstep
      obtain ⟨path, hpath⟩ := ih
      exact ⟨e :: path, .cons he hpath⟩
  obtain ⟨path, hpath⟩ := hexists
  exact ⟨path, hpath, fun other hother => hg.sumPath_unique hp hc hother hpath⟩

include hp in
/-- The Weight units with an edge into a tree are its leaves, with one edge each. -/
theorem leafEdges_perm (hc : c ∈ summed) {sg : Subgroup} (hsg : sg ∈ p.subgroups) :
    ((g.leafEdges sg c).map (·.source)).Perm (p.subgroups.map fun x => leafSender sg x c) := by
  have hmem {e : Edge} (he : e ∈ g.leafEdges sg c) : e ∈ g.edges ∧
      ∃ y ∈ p.subgroups, e.source = leafSender sg y c ∧ e.target = p.leafOf sg y ∧ e.category = c := by
    simp only [Graph.leafEdges, List.mem_filter, Array.mem_toList_iff, Bool.and_eq_true,
      decide_eq_true_eq] at he
    obtain ⟨he, ⟨hcategory, hweight⟩, htree⟩ := he
    obtain ⟨node, hnode, htarget⟩ := (hg.inTree_iff hp hsg).1 htree
    obtain ⟨a, _, b, _, hsource⟩ := (hg.hasRole_weight_iff hp).1 hweight
    have hsum : g.hasRole .sum e.target :=
      (hg.hasRole_sum_iff hp).2 ⟨sg, hsg, node, hnode, htarget⟩
    have hclimb := hg.climb_of_mem_sumEdges hp hc (mem_sumEdges.2 ⟨he, rfl, hcategory, hsum⟩)
    rw [htarget, hsource] at hclimb
    generalize hs : weightOf a b = source at hclimb
    generalize ht : UnitId.sum sg.group sg.subgroup node = target at hclimb
    refine ⟨he, ?_⟩
    cases hclimb with
    | @leaf x y hx hy =>
      obtain ⟨hgroup, hsubgroup, _⟩ := UnitId.sum.inj ht
      obtain rfl := hp.eq_of_place_eq hsg hx hgroup hsubgroup
      exact ⟨y, hy, hsource.trans hs, htarget.trans ht, hcategory⟩
    | branch | sibling => cases hs
  have hnodup : ((g.leafEdges sg c).map (·.source)).Nodup := by
    refine List.Nodup.map_on ?_ (hg.realizes.nodup_edges.filter _)
    intro a ha b hb hsource
    obtain ⟨ha, x, hx, hasource, hatarget, hacategory⟩ := hmem ha
    obtain ⟨hb, y, hy, hbsource, hbtarget, hbcategory⟩ := hmem hb
    rw [hasource, hbsource] at hsource
    obtain ⟨_, rfl⟩ := hp.leafSender_inj hsg hx hsg hy hsource
    apply hg.realizes.eq_of_key_eq ha hb
    simp only [Edge.key, hasource, hbsource, hatarget, hbtarget, hacategory, hbcategory]
  have hleaves : (p.subgroups.map fun x => leafSender sg x c).Nodup := by
    refine List.Nodup.map_on ?_ hp.nodup_subgroups
    intro x hx y hy hsame
    exact (hp.leafSender_inj hsg hx hsg hy hsame).2
  refine (List.perm_ext_iff_of_nodup hnodup hleaves).2 ?_
  intro id
  simp only [List.mem_map]
  constructor
  · rintro ⟨e, he, rfl⟩
    obtain ⟨_, y, hy, hsource, _⟩ := hmem he
    exact ⟨y, hy, hsource.symm⟩
  · rintro ⟨y, hy, rfl⟩
    obtain ⟨e, he, htarget⟩ := hg.exists_sumEdge_of_climb hp hc (.leaf hsg hy)
    obtain ⟨hedge, hsource, hcategory, _⟩ := mem_sumEdges.1 he
    have hweight : g.hasRole .weight (leafSender sg y c) := by
      rw [hg.hasRole_weight_iff hp]
      cases c with
      | backprop => exact ⟨y, hy, sg, hsg, rfl⟩
      | forward | linkDeltaSum | syncGen | stop => exact ⟨sg, hsg, y, hy, rfl⟩
    have htree : g.inTree sg (p.leafOf sg y) :=
      (hg.inTree_iff hp hsg).2 ⟨_, hp.leafNode_lt hy, rfl⟩
    refine ⟨e, ?_, hsource⟩
    simp only [Graph.leafEdges, List.mem_filter, Array.mem_toList_iff, Bool.and_eq_true,
      decide_eq_true_eq, hsource, htarget]
    exact ⟨hedge, ⟨hcategory, hweight⟩, htree⟩

include hp in
/-- A node below the root has one edge to a Sum unit, which is a node of the same tree. -/
theorem sumEdges_of_node (hc : c ∈ summed) {sg : Subgroup} (hsg : sg ∈ p.subgroups) {id : UnitId}
    (hid : g.inTree sg id) (hroot : id ≠ rootOf sg) :
    (∃ e, g.sumEdges id c = [e] ∧ g.inTree sg e.target) ∧ ∃! path, g.SumPath c id path (rootOf sg) := by
  obtain ⟨node, hnode, rfl⟩ := (hg.inTree_iff hp hsg).1 hid
  have hpos : node ≠ 0 := by
    rintro rfl
    exact hroot rfl
  obtain ⟨above, habove, hclimb⟩ := exists_climb_of_node hsg hpos hnode
  obtain ⟨e, hedge, htarget⟩ := hg.sumEdges_of_climb hp hc hclimb
  refine ⟨⟨e, hedge, ?_⟩, hg.existsUnique_sumPath hp hc (climb_to_root hsg hnode)⟩
  rw [htarget, hg.inTree_iff hp hsg]
  exact ⟨above, habove, rfl⟩

include hp in
/-- A root other than the global root has one edge to another root. -/
theorem sumEdges_of_root (hc : c = .linkDeltaSum ∨ c = .syncGen) {sg : Subgroup}
    (hsg : sg ∈ p.subgroups) (hother : rootOf sg ≠ .sum 0 0 0) :
    (∃ e, g.sumEdges (rootOf sg) c = [e] ∧ e.target ≠ rootOf sg) ∧
      ∃! path, g.SumPath c (rootOf sg) path (.sum 0 0 0) := by
  have hsummed : c ∈ summed := by rcases hc with rfl | rfl <;> decide
  obtain ⟨x, _, _, _, hclimb⟩ := hp.exists_climb_of_root hsg hother hc
  obtain ⟨e, hedge, htarget⟩ := hg.sumEdges_of_climb hp hsummed hclimb
  refine ⟨⟨e, hedge, ?_⟩, hg.existsUnique_sumPath hp hsummed (hp.root_climb_to_globalRoot hsg hc)⟩
  intro hself
  have hlt := hp.climbRank_lt hclimb
  rw [← htarget, hself] at hlt
  exact Nat.lt_irrefl _ hlt

end Plan.Drawn

namespace Topology

variable {t : Topology} {limits : Limits} {compiled : CompiledGraph}

/-- Nothing is lost or counted twice. The trees take in their subgroup's Weight units, once
each and transposed for the way back; below its root a tree leads up within itself; and for
link deltas and pulses the roots lead on to the global root, where every path ends. So every
Weight unit has exactly one path to its tree's root, and to the global root. -/
theorem Reachable.reduction_spec (ht : t.Reachable) (h : compile t limits = .ok compiled) :
    (∀ sg ∈ compiled.plan.subgroups,
      (∀ c, c = .forward ∨ c = .linkDeltaSum ∨ c = .syncGen →
        ((compiled.graph.leafEdges sg c).map (·.source)).Perm
          (compiled.plan.subgroups.map fun x => Plan.weightOf sg x)) ∧
      ((compiled.graph.leafEdges sg .backprop).map (·.source)).Perm
        (compiled.plan.subgroups.map fun x => Plan.weightOf x sg) ∧
      ∀ c ∈ Plan.summed, ∀ id, compiled.graph.inTree sg id → id ≠ Plan.rootOf sg →
        (∃ e, compiled.graph.sumEdges id c = [e] ∧ compiled.graph.inTree sg e.target) ∧
        ∃! path, compiled.graph.SumPath c id path (Plan.rootOf sg)) ∧
    (∀ c, c = .linkDeltaSum ∨ c = .syncGen →
      compiled.graph.sumEdges (.sum 0 0 0) c = [] ∧
      ∀ sg ∈ compiled.plan.subgroups, Plan.rootOf sg ≠ .sum 0 0 0 →
        (∃ e, compiled.graph.sumEdges (Plan.rootOf sg) c = [e] ∧ e.target ≠ Plan.rootOf sg) ∧
        ∃! path, compiled.graph.SumPath c (Plan.rootOf sg) path (.sum 0 0 0)) ∧
    ∀ x ∈ compiled.plan.subgroups, ∀ y ∈ compiled.plan.subgroups,
      (∀ c, c = .forward ∨ c = .linkDeltaSum ∨ c = .syncGen →
        ∃! path, compiled.graph.SumPath c (Plan.weightOf x y) path (Plan.rootOf x)) ∧
      (∃! path, compiled.graph.SumPath .backprop (Plan.weightOf x y) path (Plan.rootOf y)) ∧
      ∀ c, c = .linkDeltaSum ∨ c = .syncGen →
        ∃! path, compiled.graph.SumPath c (Plan.weightOf x y) path (.sum 0 0 0) := by
  obtain ⟨_, hp, hg⟩ := ht.sound.compile_eq_ok h
  refine ⟨?_, ?_, ?_⟩
  · intro sg hsg
    refine ⟨?_, hg.leafEdges_perm hp (by decide) hsg,
      fun c hc id hid hroot => hg.sumEdges_of_node hp hc hsg hid hroot⟩
    rintro c (rfl | rfl | rfl)
    all_goals exact hg.leafEdges_perm hp (by decide) hsg
  · intro c hc
    have hsummed : c ∈ Plan.summed := by rcases hc with rfl | rfl <;> decide
    exact ⟨hg.sumEdges_eq_nil hp hsummed fun _ => hp.not_climb_globalRoot,
      fun sg hsg hother => hg.sumEdges_of_root hp hc hsg hother⟩
  · intro x hx y hy
    refine ⟨?_, ?_, ?_⟩
    · rintro c (rfl | rfl | rfl)
      all_goals exact hg.existsUnique_sumPath hp (by decide) (hp.leaf_climb_to_root hx hy)
    · exact hg.existsUnique_sumPath hp (by decide) (hp.leaf_climb_to_root hy hx)
    · intro c hc
      have hroot : Relation.ReflTransGen (compiled.plan.Climb c) (Plan.weightOf x y) (Plan.rootOf x) := by
        rcases hc with rfl | rfl
        all_goals exact hp.leaf_climb_to_root hx hy
      have hsummed : c ∈ Plan.summed := by rcases hc with rfl | rfl <;> decide
      exact hg.existsUnique_sumPath hp hsummed (hroot.trans (hp.root_climb_to_globalRoot hx hc))

/-- The output group's second part reports its link deltas by one path. -/
theorem reduction_spec_output : ∃ t grown id compiled, make 2 = .ok t ∧
    t.addGroup 3 (Roles.ofList [.output]) none none none = .ok (id, grown) ∧
    compile grown {} = .ok compiled ∧ compiled.plan.subgroups.length = 3 ∧
    ∀ x ∈ compiled.plan.subgroups, ∀ y ∈ compiled.plan.subgroups,
      ∃! path, compiled.graph.SumPath .linkDeltaSum (Plan.weightOf x y) path (.sum 0 0 0) := by
  obtain ⟨t, grown, id, p, hmake, hadd, hplan, hlength⟩ : ∃ t grown id p, make 2 = .ok t ∧
      t.addGroup 3 (Roles.ofList [.output]) none none none = .ok (id, grown) ∧
      Plan.make grown {} = .ok p ∧ p.subgroups.length = 3 := ⟨_, _, _, _, rfl, rfl, rfl, rfl⟩
  have ht : Reachable grown := .addGroup (.make hmake) hadd
  obtain ⟨g, hcompile, _⟩ := ht.sound.compile_eq hplan
  obtain ⟨_, _, hpaths⟩ := Reachable.reduction_spec ht hcompile
  exact ⟨t, grown, id, _, hmake, hadd, hcompile, hlength,
    fun x hx y hy => (hpaths x hx y hy).2.2 .linkDeltaSum (.inl rfl)⟩

end Topology

end PerceptronMesh

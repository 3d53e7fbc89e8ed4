import Mathlib.Data.List.Nodup
import Mathlib.Data.List.Perm.Basic
import PerceptronMesh.Compile.Basic
import PerceptronMesh.Proofs.Partition.Plan

/-!
Graphs made by adding units and connections. `Graph.Realizes` says that a graph's edges are
the wires it was asked for, each once; everything known about a compiled graph's edges goes
through it.
-/

namespace PerceptronMesh

/-- What an edge was asked for as. -/
def Edge.wire (e : Edge) : Wire := ⟨e.source, e.target, e.category, e.packets⟩

/-- The part of an edge that no two edges share. -/
def Edge.key (e : Edge) : UnitId × UnitId × Category := (e.source, e.target, e.category)

def Wire.key (w : Wire) : UnitId × UnitId × Category := (w.source, w.target, w.category)

namespace Graph

/-- The edges of a graph are the given wires, repeated keys left out. -/
structure Realizes (g : Graph) (wires : List Wire) : Prop where
  nodup_key : (g.edges.toList.map Edge.key).Nodup
  wire_mem : ∀ e ∈ g.edges, e.wire ∈ wires
  exists_edge : ∀ w ∈ wires, ∃ e ∈ g.edges, e.key = w.key
  partition_eq : ∀ e ∈ g.edges, ∃ sender, g.unit? e.source = some sender ∧
    e.partition = sender.partitionName e.category

variable {g : Graph}

theorem contains_iff {id : UnitId} : g.contains id ↔ ∃ u ∈ g.units, u.id = id := by
  simp [contains, unit?]

/-- A unit with a new identifier goes to the end. -/
theorem addUnit_eq {u : MeshUnit} (h : u.id ∉ g.units.toList.map (·.id)) :
    g.addUnit u = .ok (g.units.size, { g with units := g.units.push u }) := by
  have hfresh : ¬g.contains u.id := by
    rw [contains_iff]
    rintro ⟨other, hother, hid⟩
    exact h (List.mem_map.2 ⟨other, Array.mem_toList_iff.2 hother, hid⟩)
  rw [addUnit, if_neg hfresh]

/-- Units with new identifiers are added in order. -/
theorem addUnits_eq {units : List MeshUnit}
    (h : (g.units.toList.map (·.id) ++ units.map (·.id)).Nodup) :
    g.addUnits units = .ok { g with units := g.units ++ units.toArray } := by
  induction units generalizing g with
  | nil => simp [addUnits, pure, Except.pure]
  | cons u rest ih =>
    have hfresh : u.id ∉ g.units.toList.map (·.id) := by
      intro hmem
      exact (List.nodup_append.1 h).2.2 _ hmem u.id (by simp) rfl
    have hstep : (g.addUnit u).map (·.2) = .ok { g with units := g.units.push u } := by
      rw [addUnit_eq hfresh]
      rfl
    have htail := ih (g := { g with units := g.units.push u }) (by simpa using h)
    have hunits : g.units.push u ++ rest.toArray = g.units ++ (u :: rest).toArray := by simp
    rw [hunits] at htail
    exact bind_eq_ok_iff.2 ⟨_, hstep, htail⟩

theorem hasEdge_iff {source target : UnitId} {c : Category} :
    g.hasEdge source target c ↔ ∃ e ∈ g.edges, e.key = (source, target, c) := by
  simp only [hasEdge, Array.any_eq_true', Bool.and_eq_true, decide_eq_true_eq, Edge.key,
    Prod.mk.injEq]
  constructor
  · rintro ⟨e, he, ⟨hc, hs⟩, ht⟩
    exact ⟨e, he, hs, ht, hc⟩
  · rintro ⟨e, he, hs, ht, hc⟩
    exact ⟨e, he, ⟨hc, hs⟩, ht⟩

/-- One connection between units of the graph: it is made unless its key is there already. -/
theorem Realizes.connect {wires : List Wire} (h : g.Realizes wires) {w : Wire}
    (hsource : g.contains w.source) (htarget : g.contains w.target) :
    ∃ added connected, g.connect w.source w.target w.category w.packets = .ok (added, connected) ∧
      connected.units = g.units ∧ connected.edges.size = g.edges.size + added.toNat ∧
      connected.Realizes (wires ++ [w]) := by
  obtain ⟨sender, hsender⟩ := Option.isSome_iff_exists.1 hsource
  unfold Graph.connect
  rw [hsender]
  simp only [htarget, Bool.not_true, Bool.false_eq_true, if_false]
  by_cases hedge : g.hasEdge w.source w.target w.category
  · rw [if_pos hedge]
    refine ⟨false, g, rfl, rfl, rfl, h.nodup_key, ?_, ?_, h.partition_eq⟩
    · intro e he
      exact List.mem_append_left _ (h.wire_mem e he)
    · intro wire hwire
      rcases List.mem_append.1 hwire with hold | hnew
      · exact h.exists_edge wire hold
      · rw [List.mem_singleton.1 hnew]
        exact hasEdge_iff.1 hedge
  · rw [if_neg hedge]
    refine ⟨true, _, rfl, rfl, Array.size_push .., ?_, ?_, ?_, ?_⟩
    · simp only [Array.toList_push, List.map_append, List.map_cons, List.map_nil]
      refine List.nodup_append.2 ⟨h.nodup_key, List.nodup_singleton _, ?_⟩
      intro a ha b hb hab
      obtain ⟨e, he, rfl⟩ := List.mem_map.1 ha
      rw [List.mem_singleton.1 hb] at hab
      exact hedge (hasEdge_iff.2 ⟨e, Array.mem_toList_iff.1 he, hab⟩)
    · intro e he
      rcases Array.mem_push.1 he with hold | rfl
      · exact List.mem_append_left _ (h.wire_mem e hold)
      · exact List.mem_append_right _ (by simp [Edge.wire])
    · intro wire hwire
      rcases List.mem_append.1 hwire with hold | hnew
      · obtain ⟨e, he, hkey⟩ := h.exists_edge wire hold
        exact ⟨e, Array.mem_push_of_mem _ he, hkey⟩
      · rw [List.mem_singleton.1 hnew]
        exact ⟨_, Array.mem_push_self, rfl⟩
    · intro e he
      rcases Array.mem_push.1 he with hold | rfl
      · exact h.partition_eq e hold
      · exact ⟨sender, hsender, rfl⟩

theorem realizes_nil {units : Array MeshUnit} : ({ units } : Graph).Realizes [] :=
  ⟨by simp, by simp, by simp, by simp⟩

namespace Realizes

variable {wires : List Wire} (h : g.Realizes wires)
include h

theorem eq_of_key_eq {a b : Edge} (ha : a ∈ g.edges) (hb : b ∈ g.edges) (hkey : a.key = b.key) :
    a = b :=
  List.inj_on_of_nodup_map h.nodup_key (Array.mem_toList_iff.2 ha) (Array.mem_toList_iff.2 hb) hkey

theorem nodup_edges : g.edges.toList.Nodup := h.nodup_key.of_map _

omit h in
theorem mem_inEdges {id : UnitId} {c : Category} {e : Edge} :
    e ∈ g.inEdges id c ↔ e ∈ g.edges ∧ e.target = id ∧ e.category = c := by
  simp [inEdges]

omit h in
theorem mem_outEdges {id : UnitId} {c : Category} {e : Edge} :
    e ∈ g.outEdges id c ↔ e ∈ g.edges ∧ e.source = id ∧ e.category = c := by
  simp [outEdges]

/-- Edges into one unit in one category come from different units. -/
theorem nodup_sources (id : UnitId) (c : Category) : ((g.inEdges id c).map (·.source)).Nodup := by
  refine List.Nodup.map_on ?_ (h.nodup_edges.filter _)
  intro a ha b hb hsource
  obtain ⟨ha, hatarget, hacategory⟩ := mem_inEdges.1 ha
  obtain ⟨hb, hbtarget, hbcategory⟩ := mem_inEdges.1 hb
  apply h.eq_of_key_eq ha hb
  simp only [Edge.key, hsource, hatarget, hbtarget, hacategory, hbcategory]

/-- The edges into a unit, found from a list of the wires into it without repeated
senders. -/
theorem inEdges_perm {id : UnitId} {c : Category} {senders : List (UnitId × UInt32)}
    (hnodup : (senders.map (·.1)).Nodup)
    (hmem : ∀ source packets, (source, packets) ∈ senders ↔ ⟨source, id, c, packets⟩ ∈ wires) :
    ((g.inEdges id c).map fun e => (e.source, e.packets)).Perm senders := by
  have hleft : ((g.inEdges id c).map fun e => (e.source, e.packets)).Nodup := by
    apply List.Nodup.of_map (·.1)
    rw [List.map_map]
    exact h.nodup_sources id c
  refine (List.perm_ext_iff_of_nodup hleft (hnodup.of_map _)).2 ?_
  rintro ⟨source, packets⟩
  simp only [List.mem_map, mem_inEdges, Prod.mk.injEq]
  constructor
  · rintro ⟨e, ⟨he, rfl, rfl⟩, rfl, rfl⟩
    exact (hmem _ _).2 (h.wire_mem e he)
  · intro hsender
    obtain ⟨e, he, hkey⟩ := h.exists_edge _ ((hmem _ _).1 hsender)
    simp only [Edge.key, Wire.key, Prod.mk.injEq] at hkey
    obtain ⟨rfl, rfl, rfl⟩ := hkey
    have hpair := List.inj_on_of_nodup_map hnodup hsender ((hmem _ _).2 (h.wire_mem e he)) rfl
    exact ⟨e, ⟨he, rfl, rfl⟩, rfl, (Prod.mk.inj hpair).2.symm⟩

/-- The edges out of a unit, found from a list of the units that they lead to. -/
theorem outEdges_perm {id : UnitId} {c : Category} {targets : List UnitId} (hnodup : targets.Nodup)
    (hmem : ∀ target, target ∈ targets ↔ ∃ packets, ⟨id, target, c, packets⟩ ∈ wires) :
    ((g.outEdges id c).map (·.target)).Perm targets := by
  have hleft : ((g.outEdges id c).map (·.target)).Nodup := by
    refine List.Nodup.map_on ?_ (h.nodup_edges.filter _)
    intro a ha b hb htarget
    obtain ⟨ha, hasource, hacategory⟩ := mem_outEdges.1 ha
    obtain ⟨hb, hbsource, hbcategory⟩ := mem_outEdges.1 hb
    apply h.eq_of_key_eq ha hb
    simp only [Edge.key, htarget, hasource, hbsource, hacategory, hbcategory]
  refine (List.perm_ext_iff_of_nodup hleft hnodup).2 ?_
  intro target
  rw [hmem]
  simp only [List.mem_map, mem_outEdges]
  constructor
  · rintro ⟨e, ⟨he, rfl, rfl⟩, rfl⟩
    exact ⟨e.packets, h.wire_mem e he⟩
  · rintro ⟨packets, hwire⟩
    obtain ⟨e, he, hkey⟩ := h.exists_edge _ hwire
    simp only [Edge.key, Wire.key, Prod.mk.injEq] at hkey
    obtain ⟨rfl, rfl, rfl⟩ := hkey
    exact ⟨e, ⟨he, rfl, rfl⟩, rfl⟩

end Realizes

end Graph

end PerceptronMesh

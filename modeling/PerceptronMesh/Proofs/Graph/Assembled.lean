import PerceptronMesh.Proofs.Graph.Connection
import PerceptronMesh.Proofs.Graph.UnitId

/-!
Graphs assembled by single calls. Units come from the constructors, one for each role, and a call
that is refused leaves the graph as it was. In every graph made so, no two units share an identifier,
no two edges share source, target and category, and edges run between units of the graph.
-/

namespace PerceptronMesh

/-- The constructors of units, for subgroups whose size fits a word. -/
inductive MeshUnit.Made : MeshUnit → Prop
  | weight {target source : Subgroup} : target.units < Nat.pow 2 32 → Made (.weight target source)
  | sum {sg : Subgroup} {node : Nat} : sg.units < Nat.pow 2 32 → Made (.sum sg node)
  | input {sg : Subgroup} : sg.units < Nat.pow 2 32 → Made (.input sg)
  | threshold {sg : Subgroup} : sg.units < Nat.pow 2 32 → Made (.threshold sg)

namespace MeshUnit.Made

variable {u : MeshUnit}

theorem units_lt (h : u.Made) : u.units < Nat.pow 2 32 := by
  cases h with
  | weight hunits | sum hunits | input hunits | threshold hunits => exact hunits

theorem placed (h : u.Made) : u.id.Placed := by
  cases h <;> trivial

end MeshUnit.Made

namespace Graph

/-- Graphs that start empty and grow by accepted calls. -/
inductive Assembled : Graph → Prop
  | empty : Assembled .empty
  | addUnit {g grown : Graph} {u : MeshUnit} {position : Nat} :
      Assembled g → u.Made → g.addUnit u = .ok (position, grown) → Assembled grown
  | addEdge {g connected : Graph} {source target : UnitId} {c : Category} {packets : Nat} {added : Bool} :
      Assembled g → g.addEdge source target c packets = .ok (added, connected) → Assembled connected

/-- What single calls keep. -/
structure Ordinary (g : Graph) : Prop where
  made : ∀ u ∈ g.units, u.Made
  nodup_ids : (g.units.toList.map (·.id)).Nodup
  nodup_key : (g.edges.toList.map Edge.key).Nodup
  ends : ∀ e ∈ g.edges, g.contains e.source ∧ g.contains e.target

variable {g : Graph}

theorem addUnit_eq_ok {u : MeshUnit} {position : Nat} {grown : Graph}
    (h : g.addUnit u = .ok (position, grown)) :
    (∀ other ∈ g.units, other.id ≠ u.id) ∧ grown = { g with units := g.units.push u } := by
  unfold addUnit at h
  split at h
  · cases h
  · rename_i hfresh
    cases h
    exact ⟨fun other hother hid => hfresh (contains_iff.2 ⟨other, hother, hid⟩), rfl⟩

/-- A connection is new and goes to the end, or is there already. -/
theorem addEdge_eq_ok {source target : UnitId} {c : Category} {packets : Nat} {added : Bool}
    {connected : Graph} (h : g.addEdge source target c packets = .ok (added, connected)) :
    g.contains source ∧ g.contains target ∧ (connected = g ∨ ∃ partition,
      (∀ e ∈ g.edges, e.key ≠ (source, target, c)) ∧
      connected = { g with edges := g.edges.push ⟨source, target, c, partition, .ofNat packets⟩ }) := by
  unfold addEdge connect at h
  split at h
  · cases h
  · rename_i sender hsender
    split_ifs at h with hmissing hthere
    · cases h
      exact ⟨by rw [contains, hsender]; rfl, by simpa using hmissing, .inl rfl⟩
    · cases h
      refine ⟨by rw [contains, hsender]; rfl, by simpa using hmissing, .inr ⟨_, ?_, rfl⟩⟩
      intro e he hkey
      exact hthere (hasEdge_iff.2 ⟨e, he, hkey⟩)

namespace Ordinary

theorem empty : Graph.empty.Ordinary := by
  constructor <;> simp [Graph.empty]

theorem addUnit (h : g.Ordinary) {u : MeshUnit} (hu : u.Made) (hfresh : ∀ other ∈ g.units, other.id ≠ u.id) :
    ({ g with units := g.units.push u } : Graph).Ordinary where
  made := by
    intro other hother
    rcases Array.mem_push.1 hother with hold | rfl
    · exact h.made other hold
    · exact hu
  nodup_ids := by
    rw [Array.toList_push, List.map_append, List.map_singleton]
    refine List.nodup_append.2 ⟨h.nodup_ids, List.nodup_singleton _, ?_⟩
    intro id hid last hlast hsame
    obtain ⟨other, hother, rfl⟩ := List.mem_map.1 hid
    exact hfresh other (Array.mem_toList_iff.1 hother) (hsame.trans (List.mem_singleton.1 hlast))
  nodup_key := h.nodup_key
  ends := by
    have hstill {id : UnitId} (hid : g.contains id) :
        ({ g with units := g.units.push u } : Graph).contains id := by
      obtain ⟨other, hother, hsame⟩ := contains_iff.1 hid
      exact contains_iff.2 ⟨other, Array.mem_push_of_mem _ hother, hsame⟩
    intro e he
    exact ⟨hstill (h.ends e he).1, hstill (h.ends e he).2⟩

theorem addEdge (h : g.Ordinary) {e : Edge} (hsource : g.contains e.source) (htarget : g.contains e.target)
    (hnew : ∀ other ∈ g.edges, other.key ≠ e.key) :
    ({ g with edges := g.edges.push e } : Graph).Ordinary where
  made := h.made
  nodup_ids := h.nodup_ids
  nodup_key := by
    rw [Array.toList_push, List.map_append, List.map_singleton]
    refine List.nodup_append.2 ⟨h.nodup_key, List.nodup_singleton _, ?_⟩
    intro key hkey last hlast hsame
    obtain ⟨other, hother, rfl⟩ := List.mem_map.1 hkey
    exact hnew other (Array.mem_toList_iff.1 hother) (hsame.trans (List.mem_singleton.1 hlast))
  ends := by
    intro other hother
    rcases Array.mem_push.1 hother with hold | rfl
    · exact h.ends other hold
    · exact ⟨hsource, htarget⟩

/-- Ends of edges are identifiers made from positions. -/
theorem placed_of_contains (h : g.Ordinary) {id : UnitId} (hid : g.contains id) : id.Placed := by
  obtain ⟨u, hu, rfl⟩ := contains_iff.1 hid
  exact (h.made u hu).placed

end Ordinary

/-- Whatever calls assembled it, a graph is ordinary. -/
theorem Assembled.ordinary (h : g.Assembled) : g.Ordinary := by
  induction h with
  | empty => exact .empty
  | addUnit _ hmade hadd ih =>
    obtain ⟨hfresh, rfl⟩ := addUnit_eq_ok hadd
    exact ih.addUnit hmade hfresh
  | addEdge _ hadd ih =>
    obtain ⟨hsource, htarget, rfl | ⟨partition, hnew, rfl⟩⟩ := addEdge_eq_ok hadd
    · exact ih
    · exact ih.addEdge hsource htarget hnew

end Graph

end PerceptronMesh

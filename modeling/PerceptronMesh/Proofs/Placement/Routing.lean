import PerceptronMesh.Placement.Loopback
import PerceptronMesh.Proofs.Graph.Partitions

/-!
Routing keys. A table covers a graph if it has a key for each of the graph's partitions, and
then every unit's keys can be looked up. The loopback's keys cover the graph it places, and
they run out only when the partitions need more than 32 bits of them.
-/

namespace PerceptronMesh

open Numeric

namespace RoutingTable

/-- Every partition of the graph has a key. -/
def Covers (t : RoutingTable) (g : Graph) : Prop :=
  ∀ partition ∈ g.partitions, ∃ key, t.key? partition.name = some key

theorem lookup_insertEntry (name other : String) (key : UInt32) (entries : List (String × UInt32)) :
    (insertEntry name key entries).lookup other =
      if other = name then some key else entries.lookup other := by
  induction entries with
  | nil =>
    rw [insertEntry, List.lookup_cons]
    by_cases hname : other = name
    · simp [hname]
    · simp [hname, beq_eq_false_iff_ne.2 hname]
  | cons first rest ih =>
    obtain ⟨held, old⟩ := first
    unfold insertEntry
    by_cases hsame : name = held
    · rw [if_pos hsame, List.lookup_cons, List.lookup_cons, ← hsame]
      by_cases hname : other = name
      · simp [hname]
      · simp [hname, beq_eq_false_iff_ne.2 hname]
    · rw [if_neg hsame]
      by_cases hbefore : name < held
      · rw [if_pos hbefore, List.lookup_cons]
        by_cases hname : other = name
        · simp [hname]
        · simp [hname, beq_eq_false_iff_ne.2 hname]
      · rw [if_neg hbefore, List.lookup_cons, ih, List.lookup_cons]
        by_cases hname : other = name
        · simp [hname, beq_eq_false_iff_ne.2 hsame]
        · simp [hname]

theorem key?_insert (t : RoutingTable) (name other : String) (key : UInt32) :
    (t.insert name key).key? other = if other = name then some key else t.key? other :=
  lookup_insertEntry name other key t.entries

/-- A name that is entered once keeps a key. -/
theorem exists_key_foldl {entries : List (String × UInt32)} {t : RoutingTable} {name : String}
    (h : (∃ key, t.key? name = some key) ∨ name ∈ entries.map (·.1)) :
    ∃ key, (entries.foldl (fun t (name, key) => t.insert name key) t).key? name = some key := by
  induction entries generalizing t with
  | nil => simpa using h
  | cons entry rest ih =>
    apply ih
    by_cases hname : name = entry.1
    · exact .inl ⟨entry.2, by rw [key?_insert, if_pos hname]⟩
    · obtain ⟨key, hkey⟩ | hmem := h
      · exact .inl ⟨key, by rw [key?_insert, if_neg hname, hkey]⟩
      · rw [List.map_cons, List.mem_cons] at hmem
        exact .inr (hmem.resolve_left hname)

theorem exists_key_ofList {entries : List (String × UInt32)} {name : String}
    (h : name ∈ entries.map (·.1)) : ∃ key, (ofList entries).key? name = some key :=
  exists_key_foldl (.inr h)

variable {t : RoutingTable} {g : Graph} {u : MeshUnit}

theorem Covers.exists_addKey (h : t.Covers g) (hu : u ∈ g.units) (keys : RoutingKeys) (c : Category) :
    ∃ later, t.addKey g u.id keys c = .ok later := by
  unfold addKey
  cases hname : g.outgoingPartition u.id c with
  | none => exact ⟨keys, rfl⟩
  | some name =>
    obtain ⟨partition, hpartition, _, rfl⟩ := Graph.exists_partition_of_outgoing hu hname
    obtain ⟨key, hkey⟩ := h partition hpartition
    exact ⟨keys.set c key, by simp only [hkey]⟩

/-- The keys of every unit can be looked up. -/
theorem Covers.exists_keysFor (h : t.Covers g) (hu : u ∈ g.units) :
    ∃ keys, t.keysFor g u.id = .ok keys := by
  have hrun (categories : List Category) (keys : RoutingKeys) :
      ∃ later, categories.foldlM (t.addKey g u.id) keys = .ok later := by
    induction categories generalizing keys with
    | nil => exact ⟨keys, rfl⟩
    | cons c rest ih =>
      obtain ⟨next, hnext⟩ := h.exists_addKey hu keys c
      obtain ⟨later, hlater⟩ := ih next
      exact ⟨later, by rw [List.foldlM_cons, hnext]; exact hlater⟩
  exact hrun _ _

end RoutingTable

namespace Loopback

/-- Keys run out exactly when the last of them would not fit a word. -/
theorem allocate_cases {keySpace index : Nat} (hstart : index * keySpace ≤ maxWord32)
    (partitions : List Partition) :
    ((index + partitions.length) * keySpace ≤ maxWord32 ∧
        ∃ keys, allocate keySpace index partitions = .ok keys ∧
          keys.map (·.1) = partitions.map (·.name)) ∨
      (maxWord32 < (index + partitions.length) * keySpace ∧
        ∃ name, allocate keySpace index partitions = .error (.placement (.keysExhausted name))) := by
  induction partitions generalizing index with
  | nil => exact .inl ⟨hstart, [], rfl, rfl⟩
  | cons first rest ih =>
    have hlast : (index + (first :: rest).length) * keySpace = (index + 1 + rest.length) * keySpace := by
      rw [List.length_cons, Nat.add_right_comm, Nat.add_assoc]
    have hle : (index + 1) * keySpace ≤ (index + 1 + rest.length) * keySpace :=
      Nat.mul_le_mul_right _ (Nat.le_add_right _ _)
    rw [hlast]
    by_cases hkey : maxWord32 < (index + 1) * keySpace
    · refine .inr ⟨Nat.lt_of_lt_of_le hkey hle, first.name, ?_⟩
      simp only [allocate, if_pos hkey]
      rfl
    · obtain ⟨hfits, keys, hkeys, hnames⟩ | ⟨hexceeds, name, hfault⟩ := ih (Nat.le_of_not_lt hkey)
      · refine .inl ⟨hfits, (first.name, UInt32.ofNat ((index + 1) * keySpace)) :: keys, ?_, ?_⟩
        · simp only [allocate, if_neg hkey, hkeys]
          rfl
        · rw [List.map_cons, hnames, List.map_cons]
      · refine .inr ⟨hexceeds, name, ?_⟩
        simp only [allocate, if_neg hkey, hfault]
        rfl

end Loopback

end PerceptronMesh

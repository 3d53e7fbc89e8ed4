import Mathlib.Algebra.BigOperators.Group.List.Lemmas
import Mathlib.Algebra.GroupWithZero.Nat
import Mathlib.Logic.Function.Defs
import PerceptronMesh.Graph.Partition
import PerceptronMesh.Graph.Unit
import PerceptronMesh.Proofs.Graph.Connection
import PerceptronMesh.Proofs.Graph.UnitId

/-!
The partitions of a graph. Every unit has one in each category that it sends in, with all its
edges of that category. The name of a partition spells the category, the role and the numbers that
place the unit; every number ends where an underscore stands, so all of them can be read back.
-/

namespace PerceptronMesh

theorem Category.length_shortName (c : Category) : c.shortName.toList.length = 3 := by
  cases c <;> decide

theorem Category.shortName_injective : Function.Injective Category.shortName := by
  intro c d h
  cases c <;> cases d <;> first | rfl | simp [shortName] at h

theorem UnitRole.tag_injective : Function.Injective UnitRole.tag := by
  intro a b h
  cases a <;> cases b <;> first | rfl | simp [tag] at h

namespace MeshUnit

/-- The numbers that place a unit: those of its subgroup, its source and its node. -/
def numbers (u : MeshUnit) : List Nat :=
  u.group :: u.subgroup :: ((u.source.elim [] fun (group, subgroup) => [group, subgroup]) ++ u.treeNode.toList)

/-- Numbers in decimal, an underscore after each. -/
def underscored (numbers : List Nat) : List Char :=
  numbers.flatMap fun n => Nat.toDigits 10 n ++ ['_']

theorem underscored_injective : Function.Injective underscored := by
  intro xs
  induction xs with
  | nil =>
    intro ys h
    cases ys with
    | nil => rfl
    | cons y ys => simp [underscored] at h
  | cons x xs ih =>
    intro ys h
    cases ys with
    | nil => simp [underscored] at h
    | cons y ys =>
      simp only [underscored, List.flatMap_cons, List.append_assoc, List.singleton_append] at h
      obtain ⟨hfirst, hrest⟩ := UnitId.digits_append_inj (by decide) h
      rw [hfirst, ih hrest]

theorem toList_partitionName (u : MeshUnit) (c : Category) :
    (u.partitionName c).toList ++ ['_'] =
      c.shortName.toList ++ '_' :: u.role.tag :: underscored u.numbers := by
  unfold partitionName numbers underscored
  rcases u.source with _ | ⟨group, subgroup⟩ <;> rcases u.treeNode with _ | node <;>
    simp [Nat.toList_repr, toString]

/-- A name tells the category, the role and the numbers. -/
theorem partitionName_inj {u v : MeshUnit} {c d : Category} (h : u.partitionName c = v.partitionName d) :
    c = d ∧ u.role = v.role ∧ u.numbers = v.numbers := by
  have hlist := congrArg (fun name => name.toList ++ ['_']) h
  simp only [toList_partitionName] at hlist
  obtain ⟨hcategory, hrest⟩ :=
    List.append_inj hlist (by rw [Category.length_shortName, Category.length_shortName])
  obtain ⟨htag, hnumbers⟩ := List.cons.inj (List.cons.inj hrest).2
  exact ⟨Category.shortName_injective (String.toList_injective hcategory),
    UnitRole.tag_injective htag, underscored_injective hnumbers⟩

end MeshUnit

/-- Whose traffic an edge carries, and in which category. -/
def Edge.origin (e : Edge) : UnitId × Category := (e.source, e.category)

/-- Whose traffic a partition is, and in which category. -/
def Partition.origin (p : Partition) : UnitId × Category := (p.source, p.category)

namespace Graph

/-- The partitions take the traffic of a graph apart: one for every unit and category with
edges, none of them with the name of another. -/
structure Parted (g : Graph) : Prop where
  nodup_origin : (g.partitions.map (·.origin)).Nodup
  mem_origin_iff : ∀ id c, (id, c) ∈ g.partitions.map (·.origin) ↔ g.outEdges id c ≠ []
  fanOut_eq : ∀ partition ∈ g.partitions,
    partition.fanOut = (g.outEdges partition.source partition.category).length
  sum_fanOut : (g.partitions.map (·.fanOut)).sum = g.edges.size
  nodup_name : (g.partitions.map (·.name)).Nodup

variable {g : Graph} {id : UnitId} {c : Category} {partition : Partition}

theorem filter_category_eq_outEdges (id : UnitId) (c : Category) :
    (g.edges.toList.filter (·.source = id)).filter (·.category = c) = g.outEdges id c := by
  rw [List.filter_filter, outEdges]
  simp only [Bool.and_comm]

/-- A partition is opened by the first edge of its traffic and counts them all. -/
theorem partition?_eq_some_iff :
    partition? (g.edges.toList.filter (·.source = id)) id c = some partition ↔
      ∃ first rest, g.outEdges id c = first :: rest ∧ partition = ⟨first.partition, id, c, rest.length + 1⟩ := by
  unfold partition?
  rw [filter_category_eq_outEdges]
  cases g.outEdges id c with
  | nil => simp
  | cons first rest => simp [eq_comm]

theorem mem_partitions_iff :
    partition ∈ g.partitions ↔ ∃ u ∈ g.units, ∃ c first rest, g.outEdges u.id c = first :: rest ∧
      partition = ⟨first.partition, u.id, c, rest.length + 1⟩ := by
  simp only [partitions, List.mem_flatMap, List.mem_filterMap, partition?_eq_some_iff, Array.mem_toList_iff,
    Category.mem_all, true_and]

theorem length_partitions_le (g : Graph) : g.partitions.length ≤ g.units.size * 5 := by
  unfold partitions
  rw [← Array.length_toList]
  generalize g.units.toList = units
  induction units with
  | nil => exact Nat.zero_le _
  | cons u rest ih =>
    have hown := List.length_filterMap_le (partition? (g.edges.toList.filter (·.source = u.id)) u.id) Category.all
    rw [List.flatMap_cons, List.length_append, List.length_cons, Nat.succ_mul, Nat.add_comm]
    exact Nat.add_le_add ih hown

theorem outgoingPartition_eq (id : UnitId) (c : Category) :
    g.outgoingPartition id c = (g.outEdges id c).head?.map (·.partition) := by
  rw [outgoingPartition, outEdges, List.head?_filter, Array.find?_toList]

theorem outgoingPartition_eq_none_iff : g.outgoingPartition id c = none ↔ g.outEdges id c = [] := by
  rw [outgoingPartition_eq, Option.map_eq_none_iff, List.head?_eq_none_iff]

/-- What a unit sends in a category is one of the graph's partitions. -/
theorem exists_partition_of_outgoing {u : MeshUnit} {name : String} (hu : u ∈ g.units)
    (h : g.outgoingPartition u.id c = some name) :
    ∃ partition ∈ g.partitions, partition.origin = (u.id, c) ∧ partition.name = name := by
  rw [outgoingPartition_eq, Option.map_eq_some_iff] at h
  obtain ⟨first, hhead, rfl⟩ := h
  obtain ⟨rest, hedges⟩ := List.head?_eq_some_iff.1 hhead
  exact ⟨_, mem_partitions_iff.2 ⟨u, hu, c, first, rest, hedges, rfl⟩, rfl, rfl⟩

/-- The edges of one unit in one category, counted among the origins of all. -/
theorem count_origin (id : UnitId) (c : Category) :
    (g.edges.toList.map (·.origin)).count (id, c) = (g.outEdges id c).length := by
  rw [List.count, List.countP_map, List.countP_eq_length_filter]
  refine congrArg List.length (List.filter_congr fun e _ => ?_)
  simp [Edge.origin, Bool.beq_eq_decide_eq, Bool.decide_and]

theorem fanOut_eq_count (h : partition ∈ g.partitions) :
    partition.fanOut = (g.edges.toList.map (·.origin)).count partition.origin := by
  obtain ⟨u, _, c, first, rest, hedges, rfl⟩ := mem_partitions_iff.1 h
  rw [Partition.origin, count_origin, hedges, List.length_cons]

theorem nodup_origin (hids : (g.units.toList.map (·.id)).Nodup) :
    (g.partitions.map (·.origin)).Nodup := by
  have horigin {id : UnitId} {c : Category} {origin : UnitId × Category}
      (h : (partition? (g.edges.toList.filter (·.source = id)) id c).map (·.origin) = some origin) :
      origin = (id, c) := by
    obtain ⟨partition, hpartition, rfl⟩ := Option.map_eq_some_iff.1 h
    obtain ⟨first, rest, _, rfl⟩ := partition?_eq_some_iff.1 hpartition
    rfl
  rw [partitions, List.map_flatMap, List.nodup_flatMap]
  constructor
  · intro u _
    rw [List.map_filterMap]
    refine List.Nodup.filterMap ?_ (by decide : Category.all.Nodup)
    intro c d origin hc hd
    exact (Prod.mk.inj ((horigin hc).symm.trans (horigin hd))).2
  · refine (List.pairwise_map.1 hids).imp ?_
    intro u v hne origin hu hv
    simp only [List.map_filterMap, List.mem_filterMap] at hu hv
    obtain ⟨c, _, hc⟩ := hu
    obtain ⟨d, _, hd⟩ := hv
    exact hne (Prod.mk.inj ((horigin hc).symm.trans (horigin hd))).1

theorem mem_origin_iff (hsources : ∀ e ∈ g.edges, g.contains e.source) :
    (id, c) ∈ g.partitions.map (·.origin) ↔ g.outEdges id c ≠ [] := by
  rw [List.mem_map]
  constructor
  · rintro ⟨partition, hpartition, horigin⟩
    obtain ⟨u, _, d, first, rest, hedges, rfl⟩ := mem_partitions_iff.1 hpartition
    obtain ⟨rfl, rfl⟩ := Prod.mk.inj horigin
    rw [hedges]
    exact List.cons_ne_nil _ _
  · intro hsends
    obtain ⟨first, rest, hedges⟩ := List.exists_cons_of_ne_nil hsends
    obtain ⟨hfirst, hsource, _⟩ := Realizes.mem_outEdges.1 (hedges ▸ List.mem_cons_self)
    obtain ⟨u, hu, hid⟩ := contains_iff.1 (hsources first hfirst)
    obtain rfl := hid.trans hsource
    exact ⟨_, mem_partitions_iff.2 ⟨u, hu, c, first, rest, hedges, rfl⟩, rfl⟩

/-- Each edge has the origin of one partition. -/
theorem sum_fanOut (hids : (g.units.toList.map (·.id)).Nodup)
    (hsources : ∀ e ∈ g.edges, g.contains e.source) :
    (g.partitions.map (·.fanOut)).sum = g.edges.size := by
  have hperm : (g.partitions.map (·.origin)).Perm (g.edges.toList.map (·.origin)).dedup := by
    refine (List.perm_ext_iff_of_nodup (nodup_origin hids) (List.nodup_dedup _)).2 ?_
    rintro ⟨id, c⟩
    rw [mem_origin_iff hsources, List.mem_dedup, ← List.count_pos_iff, count_origin, List.length_pos_iff]
  calc (g.partitions.map (·.fanOut)).sum
      = ((g.partitions.map (·.origin)).map ((g.edges.toList.map (·.origin)).count ·)).sum := by
        rw [List.map_map]
        exact congrArg List.sum (List.map_congr_left fun partition h => fanOut_eq_count h)
    _ = ((g.edges.toList.map (·.origin)).dedup.map ((g.edges.toList.map (·.origin)).count ·)).sum :=
        (hperm.map _).sum_eq
    _ = g.edges.size := by
        -- the lemma counts with decidable equality, and `origin` with that of pairs
        have hbeq : (instBEqProd : BEq (UnitId × Category)) = instBEqOfDecidableEq := lawful_beq_subsingleton _ _
        rw [← Array.length_toList, ← List.length_map (·.origin), hbeq]
        exact List.sum_map_count_dedup_eq_length _

end Graph

end PerceptronMesh

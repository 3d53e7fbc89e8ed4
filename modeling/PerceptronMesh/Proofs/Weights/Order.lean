import PerceptronMesh.Proofs.Topology.Frame
import PerceptronMesh.Proofs.Topology.Links
import PerceptronMesh.Proofs.Wire.Items

/-!
The order of a weights text. Its weights are those of the linked pairs of units, each once: by
group, by unit, by linked group and by unit of that group. A topology that takes them over holds
each for its own pair.
-/

namespace PerceptronMesh

open Numeric

/-- The unit that a weight goes to and the unit that it comes from. -/
structure Weights.Pair where
  group : GroupId
  unit : Nat
  source : GroupId
  sourceUnit : Nat
deriving DecidableEq, Repr

namespace Weights

/-- Pairs of a group's units with those of the groups linked into it, in the order of a text. -/
def groupOrder (t : Topology) (g : Group) : List Pair :=
  (List.range g.units).flatMap fun u => (sources t g).flatMap fun f =>
    (List.range f.units).map fun v => ⟨g.id, u, f.id, v⟩

/-- All linked pairs of units, in the order of a text. -/
def fileOrder (t : Topology) : List Pair := t.groups.flatMap (groupOrder t)

end Weights

/-- The weight that a topology holds for a pair of units. -/
def Topology.weightAt? (t : Topology) (pair : Weights.Pair) : Option Binary64 := do
  let g ← t.group? pair.group
  let f ← t.group? pair.source
  let held ← g.weightsFrom? pair.source
  held[pair.unit * f.units + pair.sourceUnit]?

namespace Weights

variable {t : Topology}

theorem mem_sources {g f : Group} : f ∈ sources t g ↔ f ∈ t.groups ∧ f.id ∈ g.linksFrom := by
  rw [sources, List.mem_filter, Group.isLinkedFrom, List.contains_iff_mem]

theorem nodup_id_sources (ht : t.Sound) (g : Group) : ((sources t g).map (·.id)).Nodup :=
  ht.nodup_id.sublist (List.filter_sublist.map _)

theorem mem_fileOrder_iff (ht : t.Sound) {pair : Pair} :
    pair ∈ fileOrder t ↔ ∃ g f, t.group? pair.group = some g ∧ t.group? pair.source = some f ∧
      pair.source ∈ g.linksFrom ∧ pair.unit < g.units ∧ pair.sourceUnit < f.units := by
  simp only [fileOrder, groupOrder, List.mem_flatMap, List.mem_map, List.mem_range, mem_sources]
  constructor
  · rintro ⟨g, hg, u, hu, f, ⟨hf, hlinked⟩, v, hv, rfl⟩
    exact ⟨g, f, ht.group?_id hg, ht.group?_id hf, hlinked, hu, hv⟩
  · rintro ⟨g, f, hg, hf, hlinked, hu, hv⟩
    have hgid : g.id = pair.group := (ht.placed hg).id_eq
    have hfid : f.id = pair.source := (ht.placed hf).id_eq
    exact ⟨g, List.mem_of_getElem? hg, pair.unit, hu, f, ⟨List.mem_of_getElem? hf, hfid ▸ hlinked⟩,
      pair.sourceUnit, hv, by rw [hgid, hfid]⟩

/-- No pair is listed twice. -/
theorem nodup_fileOrder (ht : t.Sound) : (fileOrder t).Nodup := by
  rw [fileOrder, List.nodup_flatMap]
  constructor
  · intro g _
    rw [groupOrder, List.nodup_flatMap]
    constructor
    · intro u _
      rw [List.nodup_flatMap]
      constructor
      · intro f _
        exact List.nodup_range.map fun v w h => (Pair.mk.inj h).2.2.2
      · refine (List.pairwise_map.1 (nodup_id_sources ht g)).imp ?_
        intro a b hne pair ha hb
        obtain ⟨_, _, rfl⟩ := List.mem_map.1 ha
        obtain ⟨_, _, hpair⟩ := List.mem_map.1 hb
        exact hne (Pair.mk.inj hpair).2.2.1.symm
    · refine List.nodup_range.imp ?_
      intro u w hne pair hu hw
      simp only [List.mem_flatMap, List.mem_map] at hu hw
      obtain ⟨_, _, _, _, rfl⟩ := hu
      obtain ⟨_, _, _, _, hpair⟩ := hw
      exact hne (Pair.mk.inj hpair).2.1.symm
  · refine (List.pairwise_map.1 ht.nodup_id).imp ?_
    intro a b hne pair ha hb
    simp only [groupOrder, List.mem_flatMap, List.mem_map] at ha hb
    obtain ⟨_, _, _, _, _, _, rfl⟩ := ha
    obtain ⟨_, _, _, _, _, _, hpair⟩ := hb
    exact hne (Pair.mk.inj hpair).1.symm

section Blocks

variable {values : Array Binary64} {start fanIn units u : Nat}

/-- The weight from unit `v` to unit `u` in a block. -/
theorem getElem?_block (hu : u < units) {sourceUnits v : Nat} (hv : v < sourceUnits) (offset : Nat) :
    (block values start fanIn offset units sourceUnits)[u * sourceUnits + v]? =
      some (values.getD (start + u * fanIn + offset + v) (.zero false)) := by
  rw [block, Array.getElem?_ofFn, dif_pos (row_index_lt hu hv), row_index_div hv, row_index_mod hv]

/-- A unit's weights from all linked groups follow each other in the text. -/
theorem blocks_row (hu : u < units) {fs : List Group} (hids : (fs.map (·.id)).Nodup) (offset : Nat) :
    (fs.flatMap fun f => (List.range f.units).map fun v =>
        (((blocks values start fanIn units offset fs).find? (·.1 == f.id)).map (·.2)).bind
          (·[u * f.units + v]?)) =
      (List.range (fs.map (·.units)).sum).map fun c =>
        some (values.getD (start + u * fanIn + offset + c) (.zero false)) := by
  induction fs generalizing offset with
  | nil => rfl
  | cons f rest ih =>
    obtain ⟨hfirst, hrest⟩ := List.nodup_cons.1 hids
    have hothers : ∀ other ∈ rest, (f.id == other.id) = false := fun other hother =>
      beq_eq_false_iff_ne.2 fun hid => hfirst (List.mem_map.2 ⟨other, hother, hid.symm⟩)
    rw [List.flatMap_cons, List.map_cons, List.sum_cons, List.range_add, List.map_append, List.map_map]
    congr 1
    · refine List.map_congr_left fun v hv => ?_
      rw [blocks, List.find?_cons_of_pos (by simp), Option.map_some, Option.bind_some,
        getElem?_block hu (List.mem_range.1 hv)]
    · calc rest.flatMap _
          = rest.flatMap fun other => (List.range other.units).map fun v =>
              (((blocks values start fanIn units (offset + f.units) rest).find? (·.1 == other.id)).map (·.2)).bind
                (·[u * other.units + v]?) := by
            refine List.flatMap_congr fun other hother => ?_
            rw [blocks, List.find?_cons_of_neg (by simp [hothers other hother])]
        _ = _ := by
            rw [ih hrest]
            simp only [Function.comp_def, Nat.add_assoc]

end Blocks

/-- The weights that a group takes over, in the order of the text. -/
theorem map_weightAt?_groupOrder {values : Array Binary64} {start : Nat} {g later : Group} {loaded : Topology}
    (ht : t.Sound) (hlater : loaded.group? g.id = some later)
    (hweights : later.weights = blocks values start (fanIn t g) g.units 0 (sources t g))
    (hunits : ∀ f ∈ t.groups, ∃ other, loaded.group? f.id = some other ∧ other.units = f.units) :
    (groupOrder t g).map loaded.weightAt? =
      (List.range (g.units * fanIn t g)).map fun i => some (values.getD (start + i) (.zero false)) := by
  have hrow (u : Nat) (hu : u < g.units) :
      ((sources t g).flatMap fun f => (List.range f.units).map fun v => (⟨g.id, u, f.id, v⟩ : Pair)).map
          loaded.weightAt? =
        (List.range (fanIn t g)).map fun c =>
          some (values.getD (start + (u * fanIn t g + c)) (.zero false)) := by
    rw [List.map_flatMap]
    calc (sources t g).flatMap _
        = (sources t g).flatMap fun f => (List.range f.units).map fun v =>
            (((blocks values start (fanIn t g) g.units 0 (sources t g)).find? (·.1 == f.id)).map (·.2)).bind
              (·[u * f.units + v]?) := by
          refine List.flatMap_congr fun f hf => ?_
          obtain ⟨other, hother, hsame⟩ := hunits f (mem_sources.1 hf).1
          rw [List.map_map]
          refine List.map_congr_left fun v _ => ?_
          simp only [Function.comp_apply, Topology.weightAt?, hlater, hother, Group.weightsFrom?, hweights,
            hsame, Option.bind_eq_bind, Option.bind_some]
      _ = _ := by
          rw [blocks_row hu (nodup_id_sources ht g)]
          simp only [Nat.add_zero, Nat.add_assoc]
          rfl
  rw [groupOrder, List.map_flatMap, ← flatMap_rows]
  exact List.flatMap_congr fun u hu => hrow u (List.mem_range.1 hu)

end Weights

namespace Topology

variable {t : Topology}

/-- Read in the order of the text, the weights taken over are those of the text. -/
theorem map_weightAt?_fileOrder (ht : t.Sound) {values : Array Binary64}
    (hsize : values.size = (t.groups.map fun g => g.units * Weights.fanIn t g).sum) :
    (Weights.fileOrder t).map (t.withWeights values).weightAt? = values.toList.map some := by
  have hunits : ∀ f ∈ t.groups, ∃ other, (t.withWeights values).group? f.id = some other ∧
      other.units = f.units := by
    intro f hf
    obtain ⟨other, hother, hframe⟩ :=
      exists_group_of_frame (t.frame_withWeights values) (ht.group?_id hf)
    exact ⟨other, hother, (group_fields_of_frame hframe).2.1⟩
  -- the groups from the k-th on take their weights from `start` on
  have hrest (rest : List Group) (k start : Nat) (hk : t.groups.drop k = rest)
      (hdistribute : (t.withWeights values).groups.drop k = Weights.distribute t values start rest) :
      (rest.flatMap (Weights.groupOrder t)).map (t.withWeights values).weightAt? =
        (List.range (rest.map fun g => g.units * Weights.fanIn t g).sum).map fun i =>
          some (values.getD (start + i) (.zero false)) := by
    induction rest generalizing k start with
    | nil => rfl
    | cons g rest ih =>
      have hg : t.groups[k]? = some g := by
        rw [← List.head?_drop, hk]
        rfl
      have hlater : (t.withWeights values).group? g.id = some { g with
          weights := Weights.blocks values start (Weights.fanIn t g) g.units 0 (Weights.sources t g) } := by
        have hat := List.head?_drop (l := (t.withWeights values).groups) (i := k)
        rw [hdistribute, ← (ht.placed hg).id_eq] at hat
        exact hat.symm
      have htail := ih (k + 1) (start + g.units * Weights.fanIn t g)
        (by rw [← List.tail_drop, hk]; rfl) (by rw [← List.tail_drop, hdistribute]; rfl)
      rw [List.flatMap_cons, List.map_append, htail, Weights.map_weightAt?_groupOrder ht hlater rfl hunits,
        List.map_cons, List.sum_cons, List.range_add, List.map_append, List.map_map]
      simp only [Function.comp_def, Nat.add_assoc]
  rw [Weights.fileOrder, hrest t.groups 0 0 rfl rfl, ← hsize]
  apply List.ext_getElem (by simp)
  intro i hi _
  rw [List.length_map, List.length_range] at hi
  simp [Array.getD, hi]

/-- The groups linked into a group are those that it lists. -/
theorem perm_id_sources (ht : t.Sound) (hlinked : t.Linked) {g : Group} (hg : g ∈ t.groups) :
    ((Weights.sources t g).map (·.id)).Perm g.linksFrom := by
  obtain ⟨i, hi⟩ := List.mem_iff_getElem?.1 hg
  refine (List.perm_ext_iff_of_nodup (Weights.nodup_id_sources ht g) (hlinked.nodup_linksFrom hi)).2 ?_
  intro source
  rw [List.mem_map]
  constructor
  · rintro ⟨f, hf, rfl⟩
    exact (Weights.mem_sources.1 hf).2
  · intro hmem
    obtain ⟨l, hl, rfl, _⟩ := (hlinked.mem_linksFrom_iff hi source).1 hmem
    obtain ⟨f, hf⟩ : ∃ f, t.groups[l.source]? = some f :=
      ⟨_, List.getElem?_eq_getElem (hlinked.link_lt l hl).1⟩
    have hid := (ht.placed hf).id_eq
    exact ⟨f, Weights.mem_sources.2 ⟨List.mem_of_getElem? hf, hid ▸ hmem⟩, hid⟩

/-- The announced count is that of the weights, cut to a word. -/
theorem expectedLinkCount_eq (ht : t.Sound) (hlinked : t.Linked) :
    t.expectedLinkCount = Weights.need t t.groups % Nat.pow 2 64 := by
  have hscale (n : Nat) (ms : List Nat) : n * ms.sum = (ms.map (n * ·)).sum := by
    induction ms with
    | nil => rfl
    | cons m rest ih => rw [List.sum_cons, Nat.mul_add, ih, List.map_cons, List.sum_cons]
  have hgroup : ∀ g ∈ t.groups, total (g.linksFrom.map fun source =>
      g.units * ((t.group? source).map Group.units).getD 0) = g.units * Weights.fanIn t g := by
    intro g hg
    rw [Weights.fanIn, total_eq_sum, total_eq_sum, hscale, List.map_map,
      ← ((perm_id_sources ht hlinked hg).map _).sum_nat, List.map_map]
    congr 1
    refine List.map_congr_left fun f hf => ?_
    simp only [Function.comp_apply, ht.group?_id (Weights.mem_sources.1 hf).1, Option.map_some, Option.getD_some]
  unfold expectedLinkCount
  simp only [← UInt64.ofNat_mul, total_ofNat64, UInt64.toNat_ofNat']
  rw [Weights.need, List.map_congr_left hgroup]

/-- The weight of a pair is the one that the text lists for it. -/
theorem weightAt?_withWeights (ht : t.Sound) {values : Array Binary64}
    (hsize : values.size = Weights.need t t.groups) {k : Nat} {pair : Weights.Pair}
    (hpair : (Weights.fileOrder t)[k]? = some pair) :
    ∃ x, values[k]? = some x ∧ (t.withWeights values).weightAt? pair = some x := by
  have horder := map_weightAt?_fileOrder ht hsize
  have hat := congrArg (·[k]?) horder
  simp only [List.getElem?_map, hpair, Option.map_some, Array.getElem?_toList] at hat
  obtain ⟨x, hx, hsome⟩ := Option.map_eq_some_iff.1 hat.symm
  exact ⟨x, hx, hsome.symm⟩

end Topology

end PerceptronMesh

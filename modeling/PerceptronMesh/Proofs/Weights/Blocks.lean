import PerceptronMesh.Proofs.Topology.Filled
import PerceptronMesh.Proofs.Weights.Order

/-!
Blocks of weights. Once weights are read, every declared link has a block with one weight for each
pair of its units; parameters and values leave the blocks where they are.
-/

namespace PerceptronMesh

open Numeric

/-- Linked groups get a block each. -/
theorem Weights.isSome_find?_blocks {values : Array Binary64} {start fanIn units offset : Nat} {sources : List Group}
    {f : Group} (hf : f ∈ sources) :
    ((Weights.blocks values start fanIn units offset sources).find? (·.1 == f.id)).isSome := by
  induction sources generalizing offset with
  | nil => cases hf
  | cons first rest ih =>
    rw [Weights.blocks]
    by_cases hid : first.id = f.id
    · rw [List.find?_cons_of_pos (by simp [hid])]
      rfl
    · rw [List.find?_cons_of_neg (by simp [hid])]
      refine ih ((List.mem_cons.1 hf).resolve_left ?_)
      rintro rfl
      exact hid rfl

namespace Topology

variable {t other : Topology}

/-- Every group holds a block of weights for each group linked into it. -/
def Weighted (t : Topology) : Prop :=
  ∀ g ∈ t.groups, ∀ source ∈ g.linksFrom, (g.weightsFrom? source).isSome

/-- Links are a matter of the frame. -/
theorem Linked.of_frame (h : t.Linked) (hframe : t.frame = other.frame) : other.Linked := by
  have hlinks : t.links = other.links := (congrArg Topology.links hframe :)
  have hlength := length_groups_of_frame hframe
  have hgroup {i : Nat} {g : Group} (hg : other.groups[i]? = some g) :
      ∃ before, t.groups[i]? = some before ∧ before.linksFrom = g.linksFrom := by
    obtain ⟨before, hbefore, hsame⟩ := exists_group_of_frame hframe hg
    exact ⟨before, hbefore, (congrArg Group.linksFrom hsame :)⟩
  refine ⟨?_, ?_, ?_⟩
  · rw [← hlinks, ← hlength]
    exact h.link_lt
  · intro i g hg
    obtain ⟨before, hbefore, hfrom⟩ := hgroup hg
    exact hfrom ▸ h.nodup_linksFrom hbefore
  · intro i g hg source
    obtain ⟨before, hbefore, hfrom⟩ := hgroup hg
    rw [← hfrom, ← hlinks]
    exact h.mem_linksFrom_iff hbefore source

/-- Weights that are read are there for every linked group. -/
theorem weighted_withWeights (ht : t.Sound) (hlinked : t.Linked) (values : Array Binary64) :
    (t.withWeights values).Weighted := by
  intro g hg source hsource
  obtain ⟨i, hi⟩ := List.mem_iff_getElem?.1 hg
  obtain ⟨before, start, hbefore, rfl⟩ := getElem?_distribute hi
  have hfrom : source ∈ before.linksFrom := hsource
  obtain ⟨l, hl, rfl, _⟩ := (hlinked.mem_linksFrom_iff hbefore _).1 hfrom
  obtain ⟨f, hf⟩ : ∃ f, t.groups[l.source]? = some f :=
    ⟨_, List.getElem?_eq_getElem (hlinked.link_lt l hl).1⟩
  have hid : f.id = l.source := (ht.placed hf).id_eq
  have hmem : f ∈ Weights.sources t before := Weights.mem_sources.2 ⟨List.mem_of_getElem? hf, hid ▸ hfrom⟩
  rw [Group.weightsFrom?, Option.isSome_map, ← hid]
  exact Weights.isSome_find?_blocks hmem

/-- Blocks stay where groups keep their weights and links. -/
theorem Weighted.of_groups (h : t.Weighted)
    (hgroups : ∀ later ∈ other.groups, ∃ g ∈ t.groups, later.linksFrom = g.linksFrom ∧ later.weights = g.weights) :
    other.Weighted := by
  intro later hlater source hsource
  obtain ⟨g, hg, hfrom, hweights⟩ := hgroups later hlater
  rw [Group.weightsFrom?, hweights]
  exact h g hg source (hfrom ▸ hsource)

theorem Weighted.setParams (h : t.Weighted) (id : GroupId) (params : GroupParams) :
    (t.modifyGroup id fun g => { g with params }).Weighted := by
  refine h.of_groups fun later hlater => ?_
  obtain ⟨i, hi⟩ := List.mem_iff_getElem?.1 hlater
  simp only [modifyGroup, List.getElem?_modify, Option.map_eq_map, Option.map_eq_some_iff] at hi
  obtain ⟨before, hbefore, rfl⟩ := hi
  refine ⟨before, List.mem_of_getElem? hbefore, ?_⟩
  split
  · exact ⟨rfl, rfl⟩
  · exact ⟨rfl, rfl⟩

theorem Weighted.withValues (h : t.Weighted) (columns : Binding.Columns) : (t.withValues columns).Weighted := by
  refine h.of_groups fun later hlater => ?_
  obtain ⟨before, hbefore, rfl⟩ := List.mem_map.1 hlater
  exact ⟨before, hbefore, rfl, rfl⟩

/-- A link with a block of weights of its own, one for each pair of units. -/
def HasBlock (t : Topology) (l : Link) : Prop :=
  ∃ source target block, t.group? l.source = some source ∧ t.group? l.destination = some target ∧
    target.weightsFrom? l.source = some block ∧ block.size = target.units * source.units

theorem Linked.hasBlock (hlinked : t.Linked) (hfilled : t.Filled) (hweighted : t.Weighted) {l : Link}
    (hl : l ∈ t.links) : t.HasBlock l := by
  obtain ⟨hsource, hdestination⟩ := hlinked.link_lt l hl
  obtain ⟨source, hsource⟩ : ∃ source, t.groups[l.source]? = some source := ⟨_, List.getElem?_eq_getElem hsource⟩
  obtain ⟨target, htarget⟩ : ∃ target, t.groups[l.destination]? = some target :=
    ⟨_, List.getElem?_eq_getElem hdestination⟩
  have hmem := List.mem_of_getElem? htarget
  have hfrom : l.source ∈ target.linksFrom := (hlinked.mem_linksFrom_iff htarget _).2 ⟨l, hl, rfl, rfl⟩
  obtain ⟨block, hblock⟩ := Option.isSome_iff_exists.1 (hweighted target hmem _ hfrom)
  exact ⟨source, target, block, hsource, htarget, hblock, (hfilled target hmem).weightsFrom hblock hsource⟩

end Topology

end PerceptronMesh

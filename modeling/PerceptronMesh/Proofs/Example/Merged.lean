import Mathlib.Logic.Function.Iterate
import PerceptronMesh.Example.Block

/-!
Merging of event blocks. Every event is what the blocks that address it make of an empty one, and the
events are sized before the first block is applied, so that no block addresses one beyond them.
-/

namespace PerceptronMesh.Example

/-- The value of the last block that addresses the event and has one. -/
def lastSet {α : Type} (own : Block → Option α) (blocks : List Block) (e : Nat) : Option α :=
  (blocks.filter (e ∈ ·.header.indices)).reverse.findSome? own

/-- The lists of all blocks in turn, each as often as its block names the event. -/
def gathered (lists : Block → List ValueList) (blocks : List Block) (e : Nat) : List ValueList :=
  blocks.flatMap fun block => (List.replicate (block.header.indices.count e) (lists block)).flatten

/-- The event at `e` of an example that is written in blocks. -/
structure MergedFrom (blocks : List Block) (e : Nat) (event : Event) : Prop where
  max_eq : event.times.max = lastSet (·.header.times.max) blocks e
  min_eq : event.times.min = lastSet (·.header.times.min) blocks e
  grace_eq : event.times.grace = lastSet (·.header.times.grace) blocks e
  input_eq : event.defaults.input = lastSet (·.header.defaults.input) blocks e
  target_eq : event.defaults.target = lastSet (·.header.defaults.target) blocks e
  inputs_eq : event.inputs = gathered (·.lists.inputs) blocks e
  targets_eq : event.targets = gathered (·.lists.targets) blocks e

section One

/-- An event after all blocks, each applied as often as it names the event. -/
def mergedEvent (blocks : List Block) (e : Nat) (event : Event) : Event :=
  blocks.foldl (fun event block => block.applyTo^[block.header.indices.count e] event) event

/-- A value that a block replaces by its own. -/
theorem value_iterate {α : Type} {value : Event → Option α} {own : Option α} {block : Block}
    (h : ∀ event, value (block.applyTo event) = own.or (value event)) (n : Nat) (event : Event) :
    value (block.applyTo^[n] event) = if n = 0 then value event else own.or (value event) := by
  induction n with
  | zero => rfl
  | succ n ih =>
    rw [Function.iterate_succ_apply', h, ih, if_neg n.succ_ne_zero]
    split
    · rfl
    · rw [← Option.or_assoc, Option.or_self]

theorem lists_iterate {value : Event → List ValueList} {own : List ValueList} {block : Block}
    (h : ∀ event, value (block.applyTo event) = value event ++ own) (n : Nat) (event : Event) :
    value (block.applyTo^[n] event) = value event ++ (List.replicate n own).flatten := by
  induction n with
  | zero => simp
  | succ n ih =>
    rw [Function.iterate_succ_apply', h, ih, List.append_assoc, List.replicate_succ', List.flatten_concat]

theorem value_mergedEvent {α : Type} {value : Event → Option α} {own : Block → Option α}
    (h : ∀ block event, value (Block.applyTo block event) = (own block).or (value event))
    (blocks : List Block) (e : Nat) (event : Event) :
    value (mergedEvent blocks e event) = (lastSet own blocks e).or (value event) := by
  induction blocks generalizing event with
  | nil => rfl
  | cons block rest ih =>
    refine (ih _).trans ?_
    rw [value_iterate (h block), lastSet, lastSet]
    by_cases he : e ∈ block.header.indices
    · rw [if_neg (Nat.ne_of_gt (List.count_pos_iff.2 he)), List.filter_cons_of_pos (by simpa using he),
        List.reverse_cons, List.findSome?_append, Option.or_assoc]
      congr 2
      rw [List.findSome?_singleton]
    · rw [if_pos (List.count_eq_zero.2 he), List.filter_cons_of_neg (by simpa using he)]

theorem lists_mergedEvent {value : Event → List ValueList} {own : Block → List ValueList}
    (h : ∀ block event, value (Block.applyTo block event) = value event ++ own block)
    (blocks : List Block) (e : Nat) (event : Event) :
    value (mergedEvent blocks e event) = value event ++ gathered own blocks e := by
  induction blocks generalizing event with
  | nil => simp [mergedEvent, gathered]
  | cons block rest ih =>
    refine (ih _).trans ?_
    rw [lists_iterate (h block), List.append_assoc]
    rfl

/-- What all blocks make of an empty event. -/
theorem mergedFrom_mergedEvent (blocks : List Block) (e : Nat) :
    MergedFrom blocks e (mergedEvent blocks e {}) := by
  have hvalue {α : Type} (value : Event → Option α) {own : Block → Option α} (hempty : value {} = none)
      (h : ∀ block event, value (Block.applyTo block event) = (own block).or (value event)) :
      value (mergedEvent blocks e {}) = lastSet own blocks e := by
    rw [value_mergedEvent h, hempty, Option.or_none]
  have hlists (value : Event → List ValueList) {own : Block → List ValueList} (hempty : value {} = [])
      (h : ∀ block event, value (Block.applyTo block event) = value event ++ own block) :
      value (mergedEvent blocks e {}) = gathered own blocks e := by
    rw [lists_mergedEvent h, hempty, List.nil_append]
  exact
    { max_eq := hvalue (·.times.max) rfl fun _ _ => rfl
      min_eq := hvalue (·.times.min) rfl fun _ _ => rfl
      grace_eq := hvalue (·.times.grace) rfl fun _ _ => rfl
      input_eq := hvalue (·.defaults.input) rfl fun _ _ => rfl
      target_eq := hvalue (·.defaults.target) rfl fun _ _ => rfl
      inputs_eq := hlists (·.inputs) rfl fun _ _ => rfl
      targets_eq := hlists (·.targets) rfl fun _ _ => rfl }

end One

section All

/-- One block applied to the events that it addresses. -/
def Block.applyAll (events : Array Event) (block : Block) : Array Event :=
  block.header.indices.foldl (fun events index => events.modify index block.applyTo) events

theorem getElem?_foldl_modify {α : Type} (change : α → α) (indices : List Nat) (items : Array α) (e : Nat) :
    (indices.foldl (fun items i => items.modify i change) items)[e]? =
      items[e]?.map change^[indices.count e] := by
  induction indices generalizing items with
  | nil => simp
  | cons i rest ih =>
    rw [List.foldl_cons, ih, Array.getElem?_modify, List.count_cons]
    by_cases hi : i = e
    · subst hi
      rw [if_pos rfl, if_pos (beq_self_eq_true i), Option.map_map, Function.iterate_succ]
    · rw [if_neg hi, if_neg (by simpa using hi), Nat.add_zero]

theorem getElem?_foldl_applyAll (blocks : List Block) (events : Array Event) (e : Nat) :
    (blocks.foldl Block.applyAll events)[e]? = events[e]?.map (mergedEvent blocks e) := by
  induction blocks generalizing events with
  | nil => exact (congrFun Option.map_id _).symm
  | cons block rest ih =>
    rw [List.foldl_cons, ih, Block.applyAll, getElem?_foldl_modify, Option.map_map]
    rfl

/-- Applying blocks moves the highest index that is addressed past all that a block names. -/
theorem addressed_eq (blocks : List Block) :
    addressed blocks = ((blocks.flatMap (·.header.indices)).max?.map (· + 1)).getD 0 := by
  have hfold (indices : List Nat) (most : Nat) :
      indices.foldl (fun most index => max most (index + 1)) most =
        max most ((indices.max?.map (· + 1)).getD 0) := by
    induction indices generalizing most with
    | nil => simp
    | cons index rest ih =>
      rw [List.foldl_cons, ih, List.max?_cons]
      cases rest.max? with
      | none => simp
      | some highest => simp [Nat.max_assoc, Nat.succ_max_succ]
  rw [addressed, hfold, Nat.zero_max]

theorem lt_addressed {blocks : List Block} {block : Block} {index : Nat} (hblock : block ∈ blocks)
    (hindex : index ∈ block.header.indices) : index < addressed blocks := by
  have hmem : index ∈ blocks.flatMap (·.header.indices) := List.mem_flatMap.2 ⟨block, hblock, hindex⟩
  obtain ⟨highest, hhighest⟩ : ∃ highest, (blocks.flatMap (·.header.indices)).max? = some highest :=
    Option.isSome_iff_exists.1 (List.isSome_max?_of_mem hmem)
  have hle := (List.max?_eq_some_iff.1 hhighest).2 index hmem
  rw [addressed_eq, hhighest]
  exact Nat.lt_succ_of_le hle

variable (declared : Option Nat) (blocks : List Block)

/-- How many events there are before the first block is applied. -/
def mergedCount : Nat := max (declared.getD (addressed blocks)) (addressed blocks)

theorem mergeBlocks_eq : mergeBlocks declared blocks =
    (blocks.foldl Block.applyAll (Array.replicate (mergedCount declared blocks) {})).toList := rfl

theorem mergedCount_eq : mergedCount declared blocks = max (declared.getD 0) (addressed blocks) := by
  cases declared with
  | none => simp [mergedCount]
  | some count => rfl

theorem getElem?_mergeBlocks (e : Nat) : (mergeBlocks declared blocks)[e]? =
    if e < mergedCount declared blocks then some (mergedEvent blocks e {}) else none := by
  rw [mergeBlocks_eq, Array.getElem?_toList, getElem?_foldl_applyAll, Array.getElem?_replicate]
  split <;> rfl

theorem length_mergeBlocks : (mergeBlocks declared blocks).length = mergedCount declared blocks := by
  apply Nat.le_antisymm
  · rw [← List.getElem?_eq_none_iff, getElem?_mergeBlocks, if_neg (Nat.lt_irrefl _)]
  · rw [← Nat.not_lt]
    intro hlt
    have hnone := List.getElem?_eq_none (Nat.le_refl (mergeBlocks declared blocks).length)
    rw [getElem?_mergeBlocks, if_pos hlt] at hnone
    cases hnone

end All

section Checked

/-- A block applied to one of the events, if there is such an event. -/
def Block.applyAt? (block : Block) (events : Array Event) (index : Nat) : Option (Array Event) :=
  if h : index < events.size then some (events.set index (block.applyTo events[index])) else none

/-- A block applied to the events that it addresses, if there are such events. -/
def Block.applyAll? (events : Array Event) (block : Block) : Option (Array Event) :=
  block.header.indices.foldlM block.applyAt? events

/-- The merge with a check of every index. -/
def mergeBlocks? (declared : Option Nat) (blocks : List Block) : Option (List Event) :=
  (blocks.foldlM Block.applyAll? (Array.replicate (mergedCount declared blocks) {})).map Array.toList

theorem applyAt?_eq {block : Block} {events : Array Event} {index : Nat} (h : index < events.size) :
    block.applyAt? events index = some (events.modify index block.applyTo) := by
  rw [Block.applyAt?, dif_pos h]
  congr 1
  apply Array.ext (by simp)
  intro i _ _
  rw [Array.getElem_set, Array.getElem_modify]
  split
  · subst index
    rfl
  · rfl

theorem applyAll?_eq {block : Block} {events : Array Event}
    (h : ∀ index ∈ block.header.indices, index < events.size) :
    Block.applyAll? events block = some (Block.applyAll events block) := by
  rw [Block.applyAll?, Block.applyAll]
  generalize block.header.indices = indices at h
  induction indices generalizing events with
  | nil => rfl
  | cons index rest ih =>
    rw [List.foldlM_cons, applyAt?_eq (h index List.mem_cons_self)]
    refine ih fun other hother => ?_
    rw [Array.size_modify]
    exact h other (List.mem_cons_of_mem _ hother)

theorem size_applyAll (events : Array Event) (block : Block) : (block.applyAll events).size = events.size := by
  rw [Block.applyAll]
  induction block.header.indices generalizing events with
  | nil => rfl
  | cons index rest ih => rw [List.foldl_cons, ih, Array.size_modify]

theorem foldlM_applyAll? {blocks : List Block} {events : Array Event}
    (h : ∀ block ∈ blocks, ∀ index ∈ block.header.indices, index < events.size) :
    blocks.foldlM Block.applyAll? events = some (blocks.foldl Block.applyAll events) := by
  induction blocks generalizing events with
  | nil => rfl
  | cons block rest ih =>
    rw [List.foldlM_cons, applyAll?_eq (h block List.mem_cons_self)]
    refine ih fun other hother => ?_
    rw [size_applyAll]
    exact h other (List.mem_cons_of_mem _ hother)

/-- No block addresses an event outside the events. -/
theorem mergeBlocks?_eq (declared : Option Nat) (blocks : List Block) :
    mergeBlocks? declared blocks = some (mergeBlocks declared blocks) := by
  rw [mergeBlocks?, foldlM_applyAll?]
  · rfl
  · intro block hblock index hindex
    rw [Array.size_replicate]
    exact Nat.lt_of_lt_of_le (lt_addressed hblock hindex) (Nat.le_max_right _ _)

end Checked

end PerceptronMesh.Example

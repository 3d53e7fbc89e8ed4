import PerceptronMesh.Proofs.Placement.Step
import PerceptronMesh.Proofs.Weights.Acceptance
import PerceptronMesh.Proofs.Weights.Order

/-!
Weights loaded while their text is read. Group by group, each unit in turn takes its weights from the
linked groups one after another, every weight going to the end of a block; the groups get their blocks
after the last weight is read. The text announces a count by links, which are walked in another order than
the groups here; the loops ask for as many weights as there are pairs, whatever is announced.
-/

namespace PerceptronMesh

open Numeric

namespace Weights

section Loops

variable (extra : Nat)

/-- The lines that are left of a text and the blocks of the group that takes its weights. -/
structure Loading where
  lines : List (Nat × String)
  blocks : List (GroupId × Array Binary64)

/-- Blocks with a weight at the end of the one from a linked group. -/
def push (blocks : List (GroupId × Array Binary64)) (source : GroupId) (x : Binary64) :
    List (GroupId × Array Binary64) :=
  blocks.map fun (id, held) => (id, if source = id then held.push x else held)

/-- The next weight goes to the block from a linked group. -/
def loadWeight (loading : Loading) (source : GroupId) : Result Loading := do
  let next ← nextWeight extra loading.lines
  pure ⟨next.2, push loading.blocks source next.1⟩

/-- Every unit of a group has a weight from each unit of the linked groups in turn. -/
def loadGroup (t : Topology) (g : Group) (lines : List (Nat × String)) : Result Loading :=
  (List.range g.units).foldlM (fun loading _ =>
    (sources t g).foldlM (fun loading f =>
      (List.range f.units).foldlM (fun loading _ => loadWeight extra loading f.id) loading) loading)
    ⟨lines, (sources t g).map fun f => (f.id, #[])⟩

/-- The blocks of some groups, read one after another. -/
def loadGroups (t : Topology) (groups : List Group) (lines : List (Nat × String)) :
    Result (List (List (GroupId × Array Binary64)) × List (Nat × String)) :=
  groups.foldlM (fun loaded g => do
    let loading ← loadGroup extra t g loaded.2
    pure (loaded.1 ++ [loading.blocks], loading.lines)) ([], lines)

end Loops

section Taken

variable {extra : Nat}

/-- The next weights of a text and the lines behind them. -/
def takeWeights (extra : Nat) : Nat → List (Nat × String) → Result (List Binary64 × List (Nat × String))
  | 0, lines => pure ([], lines)
  | count + 1, lines => do
    let next ← nextWeight extra lines
    let taken ← takeWeights extra count next.2
    pure (next.1 :: taken.1, taken.2)

theorem readValues_eq (count : Nat) (lines : List (Nat × String)) :
    readValues extra count lines = (takeWeights extra count lines >>= fun taken => pure taken.1) := by
  induction count generalizing lines with
  | zero => rfl
  | succ count ih =>
    rw [readValues_succ, takeWeights, bind_assoc]
    refine bind_congr fun next => ?_
    simp only [ih, bind_assoc, pure_bind]
    cases takeWeights extra count next.2 <;> rfl

theorem takeWeights_add (count more : Nat) (lines : List (Nat × String)) :
    takeWeights extra (count + more) lines = (do
      let taken ← takeWeights extra count lines
      let others ← takeWeights extra more taken.2
      pure (taken.1 ++ others.1, others.2)) := by
  induction count generalizing lines with
  | zero =>
    rw [Nat.zero_add]
    exact (bind_pure _).symm
  | succ count ih => simp only [Nat.succ_add, takeWeights, ih, bind_assoc, pure_bind, List.cons_append]

theorem length_takeWeights {count : Nat} {lines rest : List (Nat × String)} {xs : List Binary64}
    (h : takeWeights extra count lines = .ok (xs, rest)) : xs.length = count := by
  induction count generalizing lines xs with
  | zero =>
    cases h
    rfl
  | succ count ih =>
    obtain ⟨next, _, h⟩ := bind_eq_ok_iff.1 h
    obtain ⟨⟨others, last⟩, hothers, h⟩ := bind_eq_ok_iff.1 h
    cases h
    exact congrArg Nat.succ (ih hothers)

end Taken

section Blocks

/-- Weights pushed in turn, each to the block of its linked group. -/
def pushAll (blocks : List (GroupId × Array Binary64)) (entries : List (GroupId × Binary64)) :
    List (GroupId × Array Binary64) :=
  entries.foldl (fun blocks entry => push blocks entry.1 entry.2) blocks

/-- The weights among others that come from one linked group. -/
def weightsFrom (source : GroupId) (entries : List (GroupId × Binary64)) : List Binary64 :=
  (entries.filter (·.1 == source)).map (·.2)

/-- Every block gains the weights from its linked group, in the order in which they are pushed. -/
theorem pushAll_eq (entries : List (GroupId × Binary64)) (blocks : List (GroupId × Array Binary64)) :
    pushAll blocks entries = blocks.map fun (id, held) => (id, held ++ (weightsFrom id entries).toArray) := by
  induction entries generalizing blocks with
  | nil => simp [pushAll, weightsFrom]
  | cons entry rest ih =>
    refine (ih _).trans ?_
    simp only [push, List.map_map]
    refine List.map_congr_left fun block _ => ?_
    obtain ⟨id, held⟩ := block
    by_cases hid : entry.1 = id
    · simp [weightsFrom, hid]
    · simp [weightsFrom, hid]

theorem foldlM_loadWeight {extra : Nat} (ids : List GroupId) (loading : Loading) :
    ids.foldlM (loadWeight extra) loading = (do
      let taken ← takeWeights extra ids.length loading.lines
      pure ⟨taken.2, pushAll loading.blocks (ids.zip taken.1)⟩) := by
  induction ids generalizing loading with
  | nil => rfl
  | cons id rest ih =>
    simp only [List.foldlM_cons, loadWeight, List.length_cons, takeWeights, ih, bind_assoc, pure_bind]
    rfl

/-- Loops within a loop, as one loop over all their items. -/
theorem foldlM_flatMap {α β σ : Type} (f : σ → β → Result σ) (items : α → List β) (l : List α) (before : σ) :
    l.foldlM (fun state a => (items a).foldlM f state) before = (l.flatMap items).foldlM f before := by
  induction l generalizing before with
  | nil => rfl
  | cons a rest ih =>
    rw [List.foldlM_cons, List.flatMap_cons, List.foldlM_append]
    exact bind_congr fun state => ih state

/-- The linked groups that the weights of one unit come from, in the order of a text. -/
def rowOrder (fs : List Group) : List GroupId := fs.flatMap fun f => (List.range f.units).map fun _ => f.id

theorem length_rowOrder (fs : List Group) : (rowOrder fs).length = (fs.map (·.units)).sum := by
  induction fs with
  | nil => rfl
  | cons f rest ih =>
    rw [rowOrder, List.flatMap_cons, List.length_append, List.length_map, List.length_range, ← rowOrder, ih,
      List.map_cons, List.sum_cons]

/-- The linked groups that the weights of a group come from, in the order of a text. -/
def sourceOrder (t : Topology) (g : Group) : List GroupId :=
  (List.range g.units).flatMap fun _ => rowOrder (sources t g)

theorem length_sourceOrder (t : Topology) (g : Group) : (sourceOrder t g).length = g.units * fanIn t g := by
  rw [sourceOrder, fanIn, total_eq_sum, ← length_rowOrder]
  induction g.units with
  | zero => simp
  | succ units ih => rw [List.range_succ, List.flatMap_append, List.length_append, ih, Nat.succ_mul]; simp

/-- The blocks that a group gets from its weights. -/
def ownBlocks (t : Topology) (g : Group) (xs : List Binary64) : List (GroupId × Array Binary64) :=
  (sources t g).map fun f => (f.id, (weightsFrom f.id ((sourceOrder t g).zip xs)).toArray)

/-- The loops of a group ask for one weight for each of its pairs. -/
theorem loadGroup_eq (extra : Nat) (t : Topology) (g : Group) (lines : List (Nat × String)) :
    loadGroup extra t g lines = (do
      let taken ← takeWeights extra (g.units * fanIn t g) lines
      pure ⟨taken.2, ownBlocks t g taken.1⟩) := by
  have hunits (f : Group) (loading : Loading) :
      (List.range f.units).foldlM (fun loading _ => loadWeight extra loading f.id) loading =
        ((List.range f.units).map fun _ => f.id).foldlM (loadWeight extra) loading := by
    rw [List.foldlM_map]
  have hsources (loading : Loading) :
      (sources t g).foldlM (fun loading f =>
        (List.range f.units).foldlM (fun loading _ => loadWeight extra loading f.id) loading) loading =
        (rowOrder (sources t g)).foldlM (loadWeight extra) loading := by
    simp only [hunits]
    exact foldlM_flatMap _ _ _ _
  unfold loadGroup
  simp only [hsources]
  rw [foldlM_flatMap, ← sourceOrder, foldlM_loadWeight, length_sourceOrder]
  refine bind_congr fun taken => ?_
  rw [pushAll_eq, List.map_map]
  simp [ownBlocks, Function.comp_def]

end Blocks

section Rows

variable {values : Array Binary64} {start fanIn units : Nat}

/-- One unit's weights with the linked groups that they come from. -/
def rowEntries (value : Nat → Binary64) : (base : Nat) → List Group → List (GroupId × Binary64)
  | _, [] => []
  | base, f :: rest =>
    ((List.range f.units).map fun v => (f.id, value (base + v))) ++ rowEntries value (base + f.units) rest

theorem zip_rowOrder (value : Nat → Binary64) (base : Nat) (fs : List Group) :
    (rowOrder fs).zip ((List.range (fs.map (·.units)).sum).map fun c => value (base + c)) =
      rowEntries value base fs := by
  induction fs generalizing base with
  | nil => rfl
  | cons f rest ih =>
    rw [rowOrder, List.flatMap_cons, ← rowOrder, List.map_cons, List.sum_cons, List.range_add, List.map_append,
      List.zip_append (by simp), rowEntries, List.map_map, ← ih, List.zip_map']
    simp only [Function.comp_def, Nat.add_assoc]

theorem zip_flatMap {α β γ : Type} (l : List α) {xs : α → List β} {ys : α → List γ}
    (h : ∀ a, (xs a).length = (ys a).length) :
    (l.flatMap xs).zip (l.flatMap ys) = l.flatMap fun a => (xs a).zip (ys a) := by
  induction l with
  | nil => rfl
  | cons a rest ih => rw [List.flatMap_cons, List.flatMap_cons, List.flatMap_cons, List.zip_append (h a), ih]

/-- The weights of a group, each with the linked group that it comes from. -/
theorem zip_sourceOrder (t : Topology) (g : Group) (value : Nat → Binary64) (start : Nat) :
    (sourceOrder t g).zip ((List.range (g.units * Weights.fanIn t g)).map fun i => value (start + i)) =
      (List.range g.units).flatMap fun u =>
        rowEntries value (start + u * Weights.fanIn t g) (sources t g) := by
  rw [← flatMap_rows, sourceOrder, zip_flatMap]
  · refine List.flatMap_congr fun u _ => ?_
    rw [← zip_rowOrder]
    simp only [Nat.add_assoc]
    rfl
  · intro u
    rw [length_rowOrder, List.length_map, List.length_range]
    rfl

theorem toList_block (offset sourceUnits : Nat) : (block values start fanIn offset units sourceUnits).toList =
    (List.range units).flatMap fun u => (List.range sourceUnits).map fun v =>
      values.getD (start + u * fanIn + offset + v) (.zero false) := by
  let weight (i : Nat) : Binary64 :=
    values.getD (start + i / sourceUnits * fanIn + offset + i % sourceUnits) (.zero false)
  have hblock : (block values start fanIn offset units sourceUnits).toList =
      (List.range (units * sourceUnits)).map weight := by
    apply List.ext_getElem (by simp [block])
    intro i _ _
    simp [block, weight]
  rw [hblock, ← flatMap_rows]
  refine List.flatMap_congr fun u _ => List.map_congr_left fun v hv => ?_
  have hv := List.mem_range.1 hv
  simp only [weight]
  rw [row_index_div hv, row_index_mod hv]

theorem weightsFrom_append (source : GroupId) (first second : List (GroupId × Binary64)) :
    weightsFrom source (first ++ second) = weightsFrom source first ++ weightsFrom source second := by
  rw [weightsFrom, List.filter_append, List.map_append, weightsFrom, weightsFrom]

theorem weightsFrom_flatMap {α : Type} (source : GroupId) (l : List α) (entries : α → List (GroupId × Binary64)) :
    weightsFrom source (l.flatMap entries) = l.flatMap fun a => weightsFrom source (entries a) := by
  rw [weightsFrom, List.filter_flatMap, List.map_flatMap]
  rfl

/-- Of a unit's weights those from a linked group come first if that group does. -/
theorem weightsFrom_rowEntries_cons (source : GroupId) (value : Nat → Binary64) (base : Nat) (f : Group)
    (rest : List Group) : weightsFrom source (rowEntries value base (f :: rest)) =
      (if f.id = source then (List.range f.units).map fun v => value (base + v) else []) ++
        weightsFrom source (rowEntries value (base + f.units) rest) := by
  rw [rowEntries, weightsFrom_append]
  congr 1
  split <;> rename_i hid <;> simp [weightsFrom, List.filter_map, Function.comp_def, hid]

theorem weightsFrom_rowEntries_of_not_mem {source : GroupId} {fs : List Group} (h : source ∉ fs.map (·.id))
    (value : Nat → Binary64) (base : Nat) : weightsFrom source (rowEntries value base fs) = [] := by
  induction fs generalizing base with
  | nil => rfl
  | cons f rest ih =>
    rw [List.map_cons, List.mem_cons, not_or] at h
    rw [weightsFrom_rowEntries_cons, if_neg (Ne.symm h.1), ih h.2, List.append_nil]

/-- Each block has the weights from its own linked group, the units' parts one after another. -/
theorem weightsFrom_rows {fs : List Group} (hids : (fs.map (·.id)).Nodup) (offset : Nat) :
    (fs.map fun f => (f.id, (weightsFrom f.id ((List.range units).flatMap fun u =>
      rowEntries (fun i => values.getD i (.zero false)) (start + u * fanIn + offset) fs)).toArray)) =
      blocks values start fanIn units offset fs := by
  simp only [weightsFrom_flatMap]
  induction fs generalizing offset with
  | nil => rfl
  | cons f rest ih =>
    obtain ⟨hfirst, hrest⟩ := List.nodup_cons.1 hids
    rw [List.map_cons, blocks, ← ih hrest]
    congr 1
    · congr 1
      simp only [weightsFrom_rowEntries_cons, if_pos, weightsFrom_rowEntries_of_not_mem hfirst, List.append_nil]
      rw [← toList_block]
    · refine List.map_congr_left fun other hother => ?_
      have hne : f.id ≠ other.id := fun hid => hfirst (List.mem_map.2 ⟨other, hother, hid.symm⟩)
      simp only [weightsFrom_rowEntries_cons, if_neg hne, List.nil_append, Nat.add_assoc]

/-- Read from the weights of all groups, a group's blocks are cut out of them. -/
theorem ownBlocks_eq {t : Topology} (ht : t.Sound) (g : Group) :
    ownBlocks t g ((List.range (g.units * Weights.fanIn t g)).map fun i => values.getD (start + i) (.zero false)) =
      blocks values start (Weights.fanIn t g) g.units 0 (sources t g) := by
  rw [ownBlocks, zip_sourceOrder t g fun i => values.getD i (.zero false)]
  exact weightsFrom_rows (nodup_id_sources ht g) 0

end Rows

section Groups

variable {t : Topology}

theorem need_cons (g : Group) (rest : List Group) : need t (g :: rest) = g.units * fanIn t g + need t rest := rfl

/-- The blocks of some groups, each from its share of the weights. -/
def shares (t : Topology) : List Group → List Binary64 → List (List (GroupId × Array Binary64))
  | [], _ => []
  | g :: rest, xs =>
    ownBlocks t g (xs.take (g.units * fanIn t g)) :: shares t rest (xs.drop (g.units * fanIn t g))

theorem shares_cons (g : Group) (rest : List Group) {xs : List Binary64} (hxs : xs.length = g.units * fanIn t g)
    (ys : List Binary64) : shares t (g :: rest) (xs ++ ys) = ownBlocks t g xs :: shares t rest ys := by
  rw [shares, ← hxs, List.take_left, List.drop_left]

/-- The loops of all groups ask for one weight for each of their pairs. -/
theorem loadGroups_eq (extra : Nat) (groups : List Group) (lines : List (Nat × String)) :
    loadGroups extra t groups lines = (do
      let taken ← takeWeights extra (need t groups) lines
      pure (shares t groups taken.1, taken.2)) := by
  -- the blocks that are read already stay in front, whatever they are
  have hfold (loaded : List (List (GroupId × Array Binary64))) :
      groups.foldlM (fun loaded g => do
        let loading ← loadGroup extra t g loaded.2
        pure (loaded.1 ++ [loading.blocks], loading.lines)) (loaded, lines) = (do
          let taken ← takeWeights extra (need t groups) lines
          pure (loaded ++ shares t groups taken.1, taken.2)) := by
    induction groups generalizing loaded lines with
    | nil => simp [need, takeWeights, shares]
    | cons g rest ih =>
      rw [List.foldlM_cons, need_cons, takeWeights_add, loadGroup_eq]
      simp only [bind_assoc, pure_bind, ih]
      cases htaken : takeWeights extra (g.units * fanIn t g) lines with
      | error e => rfl
      | ok taken =>
        obtain ⟨xs, after⟩ := taken
        change (takeWeights extra (need t rest) after >>= _) = (takeWeights extra (need t rest) after >>= _)
        refine bind_congr fun others => ?_
        rw [shares_cons g rest (length_takeWeights htaken), List.append_assoc]
        rfl
  exact hfold []

/-- Shares of all weights are the blocks that the groups get of them. -/
theorem shares_eq (ht : t.Sound) (values : Array Binary64) (start : Nat) (groups : List Group) :
    shares t groups ((List.range (need t groups)).map fun i => values.getD (start + i) (.zero false)) =
      (distribute t values start groups).map (·.weights) := by
  induction groups generalizing start with
  | nil => rfl
  | cons g rest ih =>
    rw [need_cons, List.range_add, List.map_append, shares_cons g rest (by simp),
      distribute, List.map_cons, ← ih, ← ownBlocks_eq ht, List.map_map]
    simp only [Function.comp_def, Nat.add_assoc]

/-- The loops over all groups read a weight for each pair of linked units and fill the blocks with
them. -/
theorem map_loadGroups (ht : t.Sound) (extra : Nat) (lines : List (Nat × String)) :
    (loadGroups extra t t.groups lines).map (·.1) = (readValues extra (need t t.groups) lines).map fun xs =>
      (distribute t xs.toArray 0 t.groups).map (·.weights) := by
  rw [loadGroups_eq, readValues_eq]
  cases htaken : takeWeights extra (need t t.groups) lines with
  | error e => rfl
  | ok taken =>
    obtain ⟨xs, rest⟩ := taken
    have hshares := shares_eq ht xs.toArray 0 t.groups
    have hxs : ((List.range (need t t.groups)).map fun i => xs.toArray.getD (0 + i) (.zero false)) = xs := by
      have hlength := length_takeWeights htaken
      apply List.ext_getElem (by simp [hlength])
      intro i _ hi
      simp [Array.getD, hi]
    rw [hxs] at hshares
    exact congrArg Except.ok hshares

end Groups

theorem map_fst_blocks (values : Array Binary64) (start fanIn units offset : Nat) (fs : List Group) :
    (blocks values start fanIn units offset fs).map (·.1) = fs.map (·.id) := by
  induction fs generalizing offset with
  | nil => rfl
  | cons f rest ih => rw [blocks, List.map_cons, List.map_cons, ih]

end Weights

namespace Topology

variable {t : Topology}

/-- Reads a text into blocks, group by group, and stores them when all is read. -/
def loadInPlace (text : String) : Step Topology Weights.Info := do
  let t ← get
  let lines := Weights.numberedLines text.toList
  let info ← Step.ofResult (Weights.readHeader t.expectedLinkCount lines)
  let loaded ← Step.ofResult (Weights.loadGroups (info.valuesPerLink - 1) t t.groups (lines.drop 4))
  forM loaded.1.zipIdx fun entry =>
    modify fun now => now.modifyGroup entry.2 fun g => { g with weights := entry.1 }
  pure info

/-- Blocks that are stored one after another are stored in the groups in turn. -/
theorem foldl_modifyGroup_zipIdx (loaded : List (List (GroupId × Array Binary64))) (before : Topology)
    (groups : List Group) (h : loaded.length = groups.length) (done : List Group) :
    (loaded.zipIdx done.length).foldl (fun now entry =>
        now.modifyGroup entry.2 fun g => { g with weights := entry.1 }) { before with groups := done ++ groups } =
      { before with groups := done ++ groups.zipWith (fun g blocks => { g with weights := blocks }) loaded } := by
  induction loaded generalizing groups done with
  | nil =>
    cases groups with
    | nil => rfl
    | cons => cases h
  | cons blocks rest ih =>
    cases groups with
    | nil => cases h
    | cons g others =>
      have hstored : ({ before with groups := done ++ g :: others } : Topology).modifyGroup done.length
          (fun g => { g with weights := blocks }) =
          { before with groups := (done ++ [{ g with weights := blocks }]) ++ others } := by
        rw [modifyGroup, List.modify_eq_take_drop, List.take_left, List.drop_left, List.append_assoc]
        rfl
      have hrest := ih others (Nat.succ.inj h) (done ++ [{ g with weights := blocks }])
      rw [List.length_append, List.length_singleton] at hrest
      rw [List.zipIdx_cons, List.foldl_cons, hstored, hrest, List.zipWith_cons_cons, List.append_assoc]
      rfl

theorem zipWith_distribute (values : Array Binary64) (start : Nat) (groups : List Group) :
    groups.zipWith (fun g blocks => { g with weights := blocks })
        ((Weights.distribute t values start groups).map (·.weights)) = Weights.distribute t values start groups := by
  induction groups generalizing start with
  | nil => rfl
  | cons g rest ih => rw [Weights.distribute, List.map_cons, List.zipWith_cons_cons, ih]

theorem foldl_store (t : Topology) (values : Array Binary64) :
    ((Weights.distribute t values 0 t.groups).map (·.weights)).zipIdx.foldl (fun now entry =>
      now.modifyGroup entry.2 fun g => { g with weights := entry.1 }) t = t.withWeights values := by
  have hlength := congrArg List.length (withoutWeights_distribute (t := t) values 0 t.groups)
  have hstored := foldl_modifyGroup_zipIdx ((Weights.distribute t values 0 t.groups).map (·.weights)) t t.groups
    (by simpa using hlength) []
  rw [List.nil_append, List.nil_append, zipWith_distribute] at hstored
  exact hstored

/-- What is refused leaves the topology as it was. -/
theorem loadInPlace_eq (ht : t.Sound) (text : String) : loadInPlace text t =
    match t.readWeights text with
    | .ok (info, later) => .ok info later
    | .error e => .error e t := by
  unfold loadInPlace
  rw [Step.bind_ok (x := get) rfl, readWeights, Weights.readText]
  dsimp only
  cases hheader : Weights.readHeader t.expectedLinkCount (Weights.numberedLines text.toList) with
  | error e => exact Step.bind_error (Step.ofResult_error rfl)
  | ok info =>
    have hloaded := Weights.map_loadGroups ht (info.valuesPerLink - 1)
      ((Weights.numberedLines text.toList).drop 4)
    rw [Step.bind_ok (Step.ofResult_ok rfl)]
    change _ = match (Weights.readValues (info.valuesPerLink - 1) (Weights.need t t.groups)
        ((Weights.numberedLines text.toList).drop 4) >>= fun xs => pure (info, xs.toArray)) >>=
          fun read => pure (read.1, t.withWeights read.2) with
      | .ok (info, later) => EStateM.Result.ok info later
      | .error e => .error e t
    cases hread : Weights.readValues (info.valuesPerLink - 1) (Weights.need t t.groups)
        ((Weights.numberedLines text.toList).drop 4) with
    | error e =>
      rw [hread] at hloaded
      cases hgroups : Weights.loadGroups (info.valuesPerLink - 1) t t.groups
          ((Weights.numberedLines text.toList).drop 4) with
      | error other =>
        rw [hgroups] at hloaded
        cases hloaded
        exact Step.bind_error (Step.ofResult_error rfl)
      | ok loaded =>
        rw [hgroups] at hloaded
        cases hloaded
    | ok xs =>
      rw [hread] at hloaded
      obtain ⟨loaded, hgroups, hblocks⟩ := map_eq_ok hloaded
      rw [Step.bind_ok (Step.ofResult_ok hgroups), Step.bind_ok (Step.forM_modify _ _ _), ← hblocks]
      exact congrArg (EStateM.Result.ok info) (foldl_store t xs.toArray)

/-- A topology that takes over weights has a block for each group that is linked into a group, and is
otherwise the same. -/
theorem blocks_withWeights (ht : t.Sound) (hlinked : t.Linked) (values : Array Binary64) :
    { t.withWeights values with groups := t.groups } = t ∧
      ∀ {i : Nat} {g : Group}, t.groups[i]? = some g → ∃ blocks,
        (t.withWeights values).groups[i]? = some { g with weights := blocks } ∧
        (blocks.map (·.1)).Perm g.linksFrom := by
  refine ⟨rfl, fun {i g} hg => ?_⟩
  obtain ⟨later, hlater, hframe⟩ := exists_group_of_frame (t.frame_withWeights values) hg
  obtain ⟨before, start, hbefore, rfl⟩ := getElem?_distribute hlater
  cases hg.symm.trans hbefore
  refine ⟨_, hlater, ?_⟩
  rw [Weights.map_fst_blocks]
  exact perm_id_sources ht hlinked (List.mem_of_getElem? hg)

/-- The weight of a pair stands in the block of its linked group, in the row and the column of the pair. -/
theorem held_of_weightAt? {later : Topology} (hframe : later.frame = t.frame) {pair : Weights.Pair} {f : Group}
    (hf : t.group? pair.source = some f) {x : Binary64} (h : later.weightAt? pair = some x) :
    ∃ held, (later.group? pair.group).bind (·.weightsFrom? pair.source) = some held ∧
      held[pair.unit * f.units + pair.sourceUnit]? = some x := by
  simp only [weightAt?, Option.bind_eq_bind, Option.bind_eq_some_iff] at h
  obtain ⟨g, hg, source, hsource, held, hheld, hx⟩ := h
  obtain ⟨other, hother, hsame⟩ := exists_group_of_frame hframe hf
  cases hsource.symm.trans hother
  rw [(group_fields_of_frame hsame).2.1] at hx
  exact ⟨held, by rw [hg]; exact hheld, hx⟩

end Topology

end PerceptronMesh

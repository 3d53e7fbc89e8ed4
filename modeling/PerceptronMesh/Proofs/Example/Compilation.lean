import PerceptronMesh.Proofs.Example.Lists
import PerceptronMesh.Proofs.Example.Obtainable
import PerceptronMesh.Proofs.Placement.Step
import PerceptronMesh.Proofs.Topology.Links

/-!
Compilation of a set of examples. It is written out here in the order in which it reads the events
and changes the topology and the set, so that a fault in the last event could come after a change.
None does: the values and the records of all events are gathered first.
-/

namespace PerceptronMesh

section Sides

/-- The groups of a side. -/
def Topology.groupsOn (t : Topology) : Side → List Group
  | .input => t.inputGroups
  | .target => t.outputGroups

def Event.listsOn (event : Event) : Side → List ValueList
  | .input => event.inputs
  | .target => event.targets

def SideValues.on (v : SideValues) : Side → UnitValue
  | .input => v.input
  | .target => v.target

def Group.valuesOn (g : Group) : Side → Array UnitValue
  | .input => g.inputs
  | .target => g.targets

def Binding.Columns.on (columns : Binding.Columns) : Side → List (Array UnitValue)
  | .input => columns.inputs
  | .target => columns.targets

theorem Topology.mem_of_mem_groupsOn {t : Topology} {side : Side} {g : Group} (h : g ∈ t.groupsOn side) :
    g ∈ t.groups := by
  cases side <;> exact List.mem_of_mem_filter h

end Sides

namespace Topology.Sound

variable {t : Topology} (ht : t.Sound) (side : Side)
include ht

theorem eq_of_id_eq : ∀ a ∈ t.groupsOn side, ∀ b ∈ t.groupsOn side, a.id = b.id → a = b := by
  intro a ha b hb hid
  have hfound := ht.group?_id (mem_of_mem_groupsOn ha)
  rw [hid, ht.group?_id (mem_of_mem_groupsOn hb)] at hfound
  exact (Option.some.inj hfound).symm

theorem nodup_id_groupsOn : ((t.groupsOn side).map (·.id)).Nodup := by
  cases side <;> exact ht.nodup_id.sublist (List.filter_sublist.map _)

end Topology.Sound

namespace Binding

/-- The row of an event in the values of a group. -/
def rowAt (column : Array UnitValue) (units row : Nat) : List UnitValue :=
  (column.toList.drop (row * units)).take units

/-- One row of values for each event, as the event gives it. -/
structure Column (gives : Event → Group → List UnitValue → Prop) (events : List Event) (g : Group)
    (column : Array UnitValue) : Prop where
  size_eq : column.size = events.length * g.units
  row : ∀ {i : Nat} {event : Event}, events[i]? = some event → gives event g (rowAt column g.units i)

theorem Column.appendRow {gives : Event → Group → List UnitValue → Prop} {events : List Event} {g : Group}
    {column : Array UnitValue} (h : Column gives events g column) {event : Event} {row : List UnitValue}
    (hlength : row.length = g.units) (hrow : gives event g row) :
    Column gives (events ++ [event]) g (column.appendList row) := by
  have hsize : column.toList.length = events.length * g.units := h.size_eq
  refine ⟨?_, ?_⟩
  · rw [← Array.length_toList, Array.appendList_eq_append, Array.toList_appendList, List.length_append,
      List.length_append, List.length_singleton, Nat.succ_mul, hsize, hlength]
  · intro i found hfound
    rw [rowAt, Array.appendList_eq_append, Array.toList_appendList]
    rcases Nat.lt_trichotomy i events.length with hlt | rfl | hgt
    · -- rows before the new one stay where they are
      rw [List.getElem?_append_left hlt] at hfound
      have hend : i * g.units + g.units ≤ column.toList.length := by
        rw [hsize, ← Nat.succ_mul]
        exact Nat.mul_le_mul_right _ hlt
      rw [List.drop_append_of_le_length (by omega),
        List.take_append_of_le_length (by rw [List.length_drop]; omega)]
      exact h.row hfound
    · rw [List.getElem?_append_right (Nat.le_refl _), Nat.sub_self, List.getElem?_cons_zero] at hfound
      cases hfound
      rw [← hsize, List.drop_left, ← hlength, List.take_length]
      exact hrow
    · rw [List.getElem?_eq_none (by simp; omega)] at hfound
      cases hfound

theorem forall₂_addRows {before after : Group → Array UnitValue → Prop} {own : Group → List UnitValue → Prop}
    (hstep : ∀ {g column row}, before g column → own g row → after g (column.appendList row)) {groups : List Group}
    {columns : List (Array UnitValue)} {rows : List (List UnitValue)} (hcolumns : List.Forall₂ before groups columns)
    (hrows : List.Forall₂ own groups rows) : List.Forall₂ after groups (addRows columns rows) := by
  unfold addRows
  induction hcolumns generalizing rows with
  | nil =>
    cases hrows
    exact .nil
  | cons hcolumn _ ih =>
    cases hrows with
    | cons hrow hrest => exact .cons (hstep hcolumn hrow) (ih hrest)

section Events

variable {t : Topology} {defaults : SideValues}

/-- What a group takes from an event on a side. -/
def RowOf (t : Topology) (defaults : SideValues) (side : Side) (event : Event) (g : Group) (row : List UnitValue) :
    Prop :=
  Gives (t.groupsOn side) (event.listsOn side) ((event.defaults.on side).or (defaults.on side)) g row

theorem addEvent_eq_ok {before columns : Columns} {event : Event} (h : addEvent t defaults before event = .ok columns)
    (side : Side) : ∃ rows,
      bindEvent side (t.groupsOn side) ((event.defaults.on side).or (defaults.on side)) (event.listsOn side) =
        .ok rows ∧ columns.on side = addRows (before.on side) rows := by
  unfold addEvent at h
  obtain ⟨inputs, hinputs, h⟩ := bind_eq_ok_iff.1 h
  obtain ⟨targets, htargets, h⟩ := bind_eq_ok_iff.1 h
  cases h
  cases side with
  | input => exact ⟨inputs, hinputs, rfl⟩
  | target => exact ⟨targets, htargets, rfl⟩

/-- The columns of all groups have a row for each of the events. -/
def ColumnsOf (t : Topology) (defaults : SideValues) (events : List Event) (columns : Columns) : Prop :=
  ∀ side, List.Forall₂ (Column (RowOf t defaults side) events) (t.groupsOn side) (columns.on side)

theorem ColumnsOf.addEvent (ht : t.Sound) {events : List Event} {before columns : Columns} {event : Event}
    (h : ColumnsOf t defaults events before) (hadd : Binding.addEvent t defaults before event = .ok columns) :
    ColumnsOf t defaults (events ++ [event]) columns := by
  intro side
  obtain ⟨rows, hrows, hcolumns⟩ := addEvent_eq_ok hadd side
  rw [hcolumns]
  exact forall₂_addRows (fun hcolumn hrow => hcolumn.appendRow hrow.length_eq hrow) (h side)
    (forall₂_gives (ht.eq_of_id_eq side) hrows)

theorem columnsOf_columns (ht : t.Sound) {events : List Event} {columns : Columns}
    (h : Binding.columns t defaults events = .ok columns) : ColumnsOf t defaults events columns := by
  have hstart : ColumnsOf t defaults [] ⟨t.inputGroups.map fun _ => #[], t.outputGroups.map fun _ => #[]⟩ := by
    intro side
    cases side
    all_goals
      refine List.forall₂_map_right_iff.2 (List.forall₂_same.2 fun g _ => ⟨by simp, fun hfound => ?_⟩)
      cases hfound
  exact foldlM_keeps (fun _ _ _ _ hbefore hnext => hbefore.addEvent ht hnext) hstart h

/-- An event cannot be added for the lists of one of its sides alone. -/
theorem addEvent_eq_error_iff (ht : t.Sound) (before : Columns) (event : Event) :
    (∃ e, addEvent t defaults before event = .error e) ↔
      ∃ side, Fault (t.groupsOn side) (event.listsOn side) := by
  have hside (side : Side) :
      (∃ e, bindEvent side (t.groupsOn side) ((event.defaults.on side).or (defaults.on side))
        (event.listsOn side) = .error e) ↔ Fault (t.groupsOn side) (event.listsOn side) :=
    bindEvent_eq_error_iff (ht.eq_of_id_eq side)
  constructor
  · rintro ⟨e, he⟩
    by_contra hnone
    have hok (side : Side) : ∃ rows, bindEvent side (t.groupsOn side)
        ((event.defaults.on side).or (defaults.on side)) (event.listsOn side) = .ok rows := by
      cases hbind : bindEvent side (t.groupsOn side) ((event.defaults.on side).or (defaults.on side))
          (event.listsOn side) with
      | ok rows => exact ⟨rows, rfl⟩
      | error e => exact absurd ⟨side, (hside side).1 ⟨e, hbind⟩⟩ hnone
    obtain ⟨inputs, hinputs⟩ := hok .input
    obtain ⟨targets, htargets⟩ := hok .target
    have hadd : addEvent t defaults before event =
        .ok ⟨addRows before.inputs inputs, addRows before.targets targets⟩ :=
      bind_eq_ok_iff.2 ⟨inputs, hinputs, bind_eq_ok_iff.2 ⟨targets, htargets, rfl⟩⟩
    cases he.symm.trans hadd
  · rintro ⟨side, hfault⟩
    cases hadd : addEvent t defaults before event with
    | error e => exact ⟨e, rfl⟩
    | ok columns =>
      obtain ⟨rows, hrows, _⟩ := addEvent_eq_ok hadd side
      obtain ⟨e, he⟩ := (hside side).2 hfault
      cases he.symm.trans hrows

/-- A fold fails exactly for a bad item, whatever is folded before it. -/
theorem foldlM_eq_error_iff {α β : Type} {f : β → α → Result β} {bad : α → Prop}
    (h : ∀ b a, (∃ e, f b a = .error e) ↔ bad a) {items : List α} {before : β} :
    (∃ e, items.foldlM f before = .error e) ↔ ∃ a ∈ items, bad a := by
  induction items generalizing before with
  | nil => simp [pure, Except.pure]
  | cons first rest ih =>
    rw [List.foldlM_cons, List.exists_mem_cons_iff]
    cases hfirst : f before first with
    | error e => exact iff_of_true ⟨e, rfl⟩ (.inl ((h before first).1 ⟨e, hfirst⟩))
    | ok next =>
      have hgood : ¬ bad first := by
        intro hbad
        obtain ⟨e, he⟩ := (h before first).2 hbad
        cases hfirst.symm.trans he
      rw [or_iff_right hgood]
      exact ih

theorem columns_eq_error_iff (ht : t.Sound) (defaults : SideValues) {events : List Event} :
    (∃ e, columns t defaults events = .error e) ↔
      ∃ event ∈ events, ∃ side, Fault (t.groupsOn side) (event.listsOn side) :=
  foldlM_eq_error_iff (addEvent_eq_error_iff ht)

end Events

end Binding

namespace Topology

variable {t : Topology} {columns : Binding.Columns}

/-- A group with its columns where there are some for it. -/
def storeIn (t : Topology) (columns : Binding.Columns) (g : Group) : Group :=
  { g with
    inputs := (((t.inputGroups.map (·.id)).zip columns.inputs).lookup g.id).getD g.inputs
    targets := (((t.outputGroups.map (·.id)).zip columns.targets).lookup g.id).getD g.targets }

theorem withValues_eq (t : Topology) (columns : Binding.Columns) :
    t.withValues columns = { t with groups := t.groups.map (t.storeIn columns) } := rfl

theorem valuesOn_storeIn (side : Side) (g : Group) :
    (t.storeIn columns g).valuesOn side =
      ((((t.groupsOn side).map (·.id)).zip (columns.on side)).lookup g.id).getD (g.valuesOn side) := by
  cases side <;> rfl

/-- A group finds its own column. -/
theorem lookup_zip_of_forall₂ {P : Group → Array UnitValue → Prop} {groups : List Group}
    {columns : List (Array UnitValue)} (hids : (groups.map (·.id)).Nodup) (h : List.Forall₂ P groups columns)
    {g : Group} (hg : g ∈ groups) : ∃ column, ((groups.map (·.id)).zip columns).lookup g.id = some column ∧ P g column := by
  induction h with
  | nil => cases hg
  | @cons first column _ _ hfirst _ ih =>
    obtain ⟨hnew, hrest⟩ := List.nodup_cons.1 hids
    rw [List.map_cons, List.zip_cons_cons]
    rcases List.mem_cons.1 hg with rfl | hmem
    · exact ⟨column, List.lookup_cons_self, hfirst⟩
    · have hne : g.id ≠ first.id := fun heq => hnew (List.mem_map.2 ⟨g, hmem, heq⟩)
      rw [List.lookup_cons, beq_false_of_ne hne]
      exact ih hrest hmem

theorem Sound.valuesOn_storeIn_of_mem (ht : t.Sound) {side : Side} {P : Group → Array UnitValue → Prop}
    (h : List.Forall₂ P (t.groupsOn side) (columns.on side)) {g : Group} (hg : g ∈ t.groupsOn side) :
    P g ((t.storeIn columns g).valuesOn side) := by
  obtain ⟨column, hlookup, hcolumn⟩ := lookup_zip_of_forall₂ (ht.nodup_id_groupsOn side) h hg
  rw [valuesOn_storeIn, hlookup]
  exact hcolumn

theorem Sound.valuesOn_storeIn_of_not_mem (ht : t.Sound) {side : Side} {g : Group} (hg : g ∈ t.groups)
    (hside : g ∉ t.groupsOn side) : (t.storeIn columns g).valuesOn side = g.valuesOn side := by
  have hnone : (((t.groupsOn side).map (·.id)).zip (columns.on side)).lookup g.id = none := by
    rw [List.lookup_eq_none_iff]
    intro entry hentry
    obtain ⟨other, hother, hid⟩ := List.mem_map.1 (List.of_mem_zip hentry).1
    rw [bne_iff_ne, ← hid]
    intro heq
    have hfound := ht.group?_id hg
    rw [heq, ht.group?_id (mem_of_mem_groupsOn hother)] at hfound
    exact hside (Option.some.inj hfound ▸ hother)
  rw [valuesOn_storeIn, hnone, Option.getD_none]

/-- Storing groups one after another stores them all. -/
theorem foldl_modify_range {α : Type} (change : α → α) (items : List α) :
    (List.range items.length).foldl (fun items i => items.modify i change) items = items.map change := by
  have hat (count : Nat) (i : Nat) :
      ((List.range count).foldl (fun items i => items.modify i change) items)[i]? =
        items[i]?.map fun item => if i < count then change item else item := by
    induction count with
    | zero => simp
    | succ count ih =>
      rw [List.range_succ, List.foldl_append, List.foldl_cons, List.foldl_nil, List.getElem?_modify, ih]
      cases items[i]? with
      | none => rfl
      | some item =>
        rcases Nat.lt_trichotomy i count with hlt | rfl | hgt
        · simp [hlt, Nat.lt_succ_of_lt hlt, Nat.ne_of_gt hlt]
        · simp
        · simp [Nat.not_lt.2 (Nat.le_of_lt hgt), Nat.not_lt.2 (Nat.succ_le_of_lt hgt), Nat.ne_of_lt hgt]
  apply List.ext_getElem?
  intro i
  rw [hat, List.getElem?_map]
  cases hi : items[i]? with
  | none => rfl
  | some item =>
    obtain ⟨hlt, _⟩ := List.getElem?_eq_some_iff.1 hi
    rw [Option.map_some, Option.map_some, if_pos hlt]

end Topology

/-- What the records of a compiled set say. -/
structure CompiledExamples.Describe (records : CompiledExamples) (s : ExampleSet) : Prop where
  set_eq : records.set = .make s.examples.length s.header.times
  length_examples : records.examples.length = s.examples.length
  length_events : records.events.length = s.events.length
  /-- The first event of an example comes after those of all examples before it. -/
  example_eq : ∀ {k : Nat} {e : Example}, s.examples[k]? = some e → records.examples[k]? = some
    { number := UInt32.ofNat k, events := UInt32.ofNat e.events.length
      firstEvent := UInt32.ofNat ((s.examples.take k).flatMap (·.events)).length
      frequency := .ofBinary64 (e.frequency.getD (.ofNat 1)) }
  event_eq : ∀ {row : Nat} {event : Event}, s.events[row]? = some event →
    records.events[row]? = some (.make row event.times)

theorem CompiledExamples.describe_ofExamples (s : ExampleSet) :
    (CompiledExamples.ofExamples s.header.times s.examples).Describe s where
  set_eq := rfl
  length_examples := length_exampleRecords 0 0 s.examples
  length_events := List.length_mapIdx
  example_eq := by
    intro k e hk
    rw [ofExamples, getElem?_exampleRecords, hk, ← List.map_take, ExampleSet.sum_map_length, Option.map_some,
      Nat.zero_add, Nat.zero_add]
  event_eq := by
    intro row event hrow
    rw [ofExamples, List.getElem?_mapIdx, ← ExampleSet.events, hrow, Option.map_some]

/-- What binding a set changes in a topology: the values of its input and output groups. -/
structure Topology.Receives (t bound : Topology) (s : ExampleSet) : Prop where
  rest_eq : { bound with groups := t.groups } = t
  length_groups : bound.groups.length = t.groups.length
  group : ∀ {i : Nat} {g : Group}, t.groups[i]? = some g → ∃ after, bound.groups[i]? = some after ∧
    { after with inputs := g.inputs, targets := g.targets } = g ∧
    ∀ side,
      (g ∈ t.groupsOn side →
        Binding.Column (Binding.RowOf t s.header.defaults side) s.events g (after.valuesOn side)) ∧
      (g ∉ t.groupsOn side → after.valuesOn side = g.valuesOn side)

theorem Topology.Sound.receives {t : Topology} (ht : t.Sound) {s : ExampleSet} {columns : Binding.Columns}
    (h : Binding.columns t s.header.defaults s.events = .ok columns) : t.Receives (t.withValues columns) s := by
  refine ⟨rfl, List.length_map _, ?_⟩
  intro i g hg
  refine ⟨t.storeIn columns g, ?_, rfl, fun side => ⟨fun hside => ?_, fun hside => ?_⟩⟩
  · rw [withValues_eq, List.getElem?_map, hg]
    rfl
  · exact ht.valuesOn_storeIn_of_mem (Binding.columnsOf_columns ht h side) hside
  · exact ht.valuesOn_storeIn_of_not_mem (List.mem_of_getElem? hg) hside

namespace ExampleSet

/-- What of a set's examples is gathered so far. -/
structure Gathered where
  columns : Binding.Columns
  examples : List ExampleRecord
  events : List EventRecord

/-- Nothing but a column without rows for each group. -/
def Gathered.start (t : Topology) : Gathered :=
  { columns := ⟨t.inputGroups.map fun _ => #[], t.outputGroups.map fun _ => #[]⟩, examples := [], events := [] }

/-- Adds the record of an event and then its rows. -/
def gatherEvent (t : Topology) (defaults : SideValues) (gathered : Gathered) (event : Event) : Result Gathered := do
  let events := gathered.events ++ [.make gathered.events.length event.times]
  let columns ← Binding.addEvent t defaults gathered.columns event
  pure { gathered with columns, events }

/-- Adds the record of an example and then its events. -/
def gatherExample (t : Topology) (defaults : SideValues) (gathered : Gathered) (e : Example) : Result Gathered :=
  let record : ExampleRecord :=
    { number := UInt32.ofNat gathered.examples.length, events := UInt32.ofNat e.events.length
      firstEvent := UInt32.ofNat gathered.events.length
      frequency := .ofBinary64 (e.frequency.getD (.ofNat 1)) }
  e.events.foldlM (gatherEvent t defaults) { gathered with examples := gathered.examples ++ [record] }

/-- Gathers all examples, stores the values group by group and the records at last. -/
def compileInPlace : Step (ExampleSet × Topology) Nat := do
  let (s, t) ← get
  match s.compiled with
  | some records => pure records.examples.length
  | none =>
    let gathered ← Step.ofResult (s.examples.foldlM (gatherExample t s.header.defaults) (.start t))
    forM (List.range t.groups.length) fun i =>
      modify fun (s, now) => (s, now.modifyGroup i (t.storeIn gathered.columns))
    let records : CompiledExamples :=
      { set := .make s.examples.length s.header.times, examples := gathered.examples, events := gathered.events }
    modify fun (s, now) => ({ s with compiled := some records }, now)
    pure gathered.examples.length

section Gather

variable {t : Topology} {defaults : SideValues}

theorem foldlM_gatherEvent (events : List Event) (gathered : Gathered) :
    events.foldlM (gatherEvent t defaults) gathered =
      (events.foldlM (Binding.addEvent t defaults) gathered.columns).map fun columns =>
        { columns, examples := gathered.examples
          events := gathered.events ++ events.mapIdx fun i event => .make (gathered.events.length + i) event.times } := by
  induction events generalizing gathered with
  | nil => simp [pure, Except.pure, Except.map]
  | cons event rest ih =>
    rw [List.foldlM_cons, List.foldlM_cons, gatherEvent]
    cases Binding.addEvent t defaults gathered.columns event with
    | error e => rfl
    | ok columns =>
      refine (ih _).trans ?_
      congr 1
      funext last
      simp [List.mapIdx_cons, Nat.add_assoc, Nat.add_comm 1]

/-- Examples are gathered as their events bind, with the records that describe them. -/
theorem foldlM_gatherExample (examples : List Example) (gathered : Gathered) :
    examples.foldlM (gatherExample t defaults) gathered =
      ((examples.flatMap (·.events)).foldlM (Binding.addEvent t defaults) gathered.columns).map fun columns =>
        { columns
          examples := gathered.examples ++
            CompiledExamples.exampleRecords gathered.examples.length gathered.events.length examples
          events := gathered.events ++ (examples.flatMap (·.events)).mapIdx fun i event =>
            .make (gathered.events.length + i) event.times } := by
  induction examples generalizing gathered with
  | nil => simp [pure, Except.pure, Except.map, CompiledExamples.exampleRecords]
  | cons e rest ih =>
    rw [List.foldlM_cons, List.flatMap_cons, List.foldlM_append, gatherExample, foldlM_gatherEvent]
    cases e.events.foldlM (Binding.addEvent t defaults) gathered.columns with
    | error e => rfl
    | ok columns =>
      refine (ih _).trans ?_
      congr 1
      funext last
      simp [CompiledExamples.exampleRecords, List.mapIdx_append, Nat.add_assoc, Nat.add_comm]

end Gather

section InPlace

variable {s : ExampleSet} {t : Topology}

theorem foldl_modifyGroup (change : Group → Group) (indices : List Nat) (now : Topology) :
    indices.foldl (fun (state : ExampleSet × Topology) i => (state.1, state.2.modifyGroup i change)) (s, now) =
      (s, { now with groups := indices.foldl (fun groups i => groups.modify i change) now.groups }) := by
  induction indices generalizing now with
  | nil => rfl
  | cons i rest ih => exact ih _

/-- What fails leaves the set and the topology as they were. -/
theorem compileInPlace_eq (s : ExampleSet) (t : Topology) : compileInPlace (s, t) =
    match s.compile t with
    | .ok (later, bound) => .ok later.compiledCount (later, bound)
    | .error e => .error e (s, t) := by
  unfold compileInPlace compile
  rw [Step.bind_ok (x := get) rfl]
  dsimp only
  cases hcompiled : s.compiled with
  | some records =>
    have hcount : s.compiledCount = records.examples.length := by simp [compiledCount, hcompiled]
    dsimp only
    rw [hcount]
    rfl
  | none =>
    have hgathered : s.examples.foldlM (gatherExample t s.header.defaults) (.start t) = _ :=
      foldlM_gatherExample s.examples (.start t)
    have hstart : (s.examples.flatMap (·.events)).foldlM (Binding.addEvent t s.header.defaults)
        (Gathered.start t).columns = Binding.columns t s.header.defaults (s.examples.flatMap (·.events)) := rfl
    rw [hstart] at hgathered
    dsimp only
    cases hcolumns : Binding.columns t s.header.defaults (s.examples.flatMap (·.events)) with
    | error e =>
      rw [hcolumns] at hgathered
      exact Step.bind_error (Step.ofResult_error hgathered)
    | ok columns =>
      rw [hcolumns] at hgathered
      rw [Step.bind_ok (Step.ofResult_ok hgathered), Step.bind_ok (Step.forM_modify _ _ _), foldl_modifyGroup,
        Topology.foldl_modify_range, Step.bind_ok (x := modify _) rfl]
      simp only [Gathered.start, List.nil_append, List.length_nil, Nat.zero_add]
      rfl

/-- Compilation fails exactly for lists that cannot all be bound, and then nothing changes. Otherwise
it counts and describes all examples and gives every group on its side a row for each event. -/
theorem binds_or_changes_nothing (ht : t.Obtained) (hs : s.compiled = none) :
    ((∃ e, s.compile t = .error e) ↔
      ∃ event ∈ s.events, ∃ side, Binding.Fault (t.groupsOn side) (event.listsOn side)) ∧
    (∀ e, s.compile t = .error e → compileInPlace (s, t) = .error e (s, t)) ∧
    ∀ later bound, s.compile t = .ok (later, bound) →
      compileInPlace (s, t) = .ok s.examples.length (later, bound) ∧
      (∃ records : CompiledExamples, later = { s with compiled := some records } ∧ records.Describe s) ∧
      t.Receives bound s := by
  have hcompile : s.compile t = (Binding.columns t s.header.defaults s.events).map fun columns =>
      ({ s with compiled := some (.ofExamples s.header.times s.examples) }, t.withValues columns) := by
    rw [compile, hs]
    rfl
  refine ⟨?_, fun e he => ?_, fun later bound h => ?_⟩
  · rw [← Binding.columns_eq_error_iff ht.sound s.header.defaults, hcompile]
    cases Binding.columns t s.header.defaults s.events <;> simp [Except.map]
  · rw [compileInPlace_eq, he]
  · cases hcolumns : Binding.columns t s.header.defaults s.events with
    | error e =>
      rw [hcompile, hcolumns] at h
      cases h
    | ok columns =>
      have hplace := compileInPlace_eq s t
      rw [h] at hplace
      rw [hcompile, hcolumns] at h
      cases h
      refine ⟨?_, ⟨_, rfl, CompiledExamples.describe_ofExamples s⟩, ht.sound.receives hcolumns⟩
      have hcount : ({ s with compiled := some (.ofExamples s.header.times s.examples) } : ExampleSet).compiledCount =
          s.examples.length := CompiledExamples.length_exampleRecords 0 0 s.examples
      rw [hplace]
      dsimp only
      rw [hcount]

/-- A set of two examples is bound to an input group of two units. -/
theorem binds_or_changes_nothing_two_examples :
    let dense : Event := { inputs := [⟨none, .dense [some (.ofNat 1), none]⟩] }
    let s : ExampleSet := { label := "set", examples := [{ events := [dense] }, { events := [{}, dense] }] }
    ∃ t id grown, Topology.make 32 = .ok t ∧
      t.addGroup 2 (Roles.ofList [.input]) none none (some "in") = .ok (id, grown) ∧ s.compiled = none ∧
      ∃ later bound, s.compile grown = .ok (later, bound) ∧
        compileInPlace (s, grown) = .ok 2 (later, bound) ∧ grown.Receives bound s := by
  intro dense s
  obtain ⟨t, id, grown, hmake, hgrown, later, bound, h⟩ : ∃ t id grown, Topology.make 32 = .ok t ∧
      t.addGroup 2 (Roles.ofList [.input]) none none (some "in") = .ok (id, grown) ∧
      ∃ later bound, s.compile grown = .ok (later, bound) := ⟨_, _, _, rfl, rfl, _, _, rfl⟩
  have hobtained : grown.Obtained := .addGroup (.make hmake) hgrown
  obtain ⟨_, _, hok⟩ := binds_or_changes_nothing (s := s) hobtained rfl
  obtain ⟨hplace, _, hreceives⟩ := hok later bound h
  exact ⟨t, id, grown, hmake, hgrown, rfl, later, bound, h, hplace, hreceives⟩

end InPlace

end ExampleSet

end PerceptronMesh

import PerceptronMesh.Proofs.Example.Binding

/-!
What listed units of sparse lists take. A text settles it while it is read, by its own header alone;
a value that the set has had before is not looked at.
-/

namespace PerceptronMesh

open Numeric

/-- All sparse lists give their units this value. -/
def ValueList.Take (value : Binary64) (lists : List ValueList) : Prop :=
  ∀ list ∈ lists, ∀ units own, list.values = .sparse units own → own = value

theorem ValueList.Take.append {value : Binary64} {lists more : List ValueList} (h : Take value lists)
    (hmore : Take value more) : Take value (lists ++ more) := by
  intro list hlist
  rcases List.mem_append.1 hlist with hmem | hmem
  · exact h list hmem
  · exact hmore list hmem

namespace Example

namespace Active

/-- Lists of both sides take the value of their side. -/
structure Given (active : Active) (lists : EventLists) : Prop where
  inputs : ValueList.Take active.input lists.inputs
  targets : ValueList.Take active.target lists.targets

/-- The same of the lists that an event has. -/
def Marks (active : Active) (event : Event) : Prop := active.Given ⟨event.inputs, event.targets⟩

variable {active : Active}

theorem given_empty : active.Given {} := by
  refine ⟨?_, ?_⟩ <;> simp [ValueList.Take]

theorem Given.append {lists more : EventLists} (h : active.Given lists) (hmore : active.Given more) :
    active.Given (lists.append more) :=
  ⟨h.inputs.append hmore.inputs, h.targets.append hmore.targets⟩

end Active

open Active

variable {active : Active}

theorem mem_of_mapM_eq_ok {α β : Type} {f : α → Result β} {items : List α} {values : List β}
    (h : items.mapM f = .ok values) {value : β} (hvalue : value ∈ values) : ∃ item ∈ items, f item = .ok value := by
  induction items generalizing values with
  | nil =>
    cases h
    cases hvalue
  | cons item rest ih =>
    rw [List.mapM_cons] at h
    obtain ⟨first, hfirst, h⟩ := bind_eq_ok_iff.1 h
    obtain ⟨others, hothers, h⟩ := bind_eq_ok_iff.1 h
    cases h
    rcases List.mem_cons.1 hvalue with rfl | hmem
    · exact ⟨item, List.mem_cons_self, hfirst⟩
    · obtain ⟨other, hother, hok⟩ := ih hothers hmem
      exact ⟨other, List.mem_cons_of_mem _ hother, hok⟩

theorem take_readList {sparse : Bool} {value : Binary64} {group : Option String} {values : List String}
    {list : ValueList} (h : readList sparse value group values = .ok list) : ValueList.Take value [list] := by
  intro other hother units own hown
  rw [List.mem_singleton.1 hother] at hown
  unfold readList at h
  split at h
  · obtain ⟨listed, _, h⟩ := bind_eq_ok_iff.1 h
    cases h
    cases hown
    rfl
  · obtain ⟨dense, _, h⟩ := bind_eq_ok_iff.1 h
    cases h
    cases hown

/-- One side of a run, which may have no list there. -/
theorem take_side {here sparse : Bool} {value : Binary64} {group : Option String} {values : List String}
    {lists : List ValueList}
    (h : (if here then (readList sparse value group values).map ([·]) else pure []) = .ok lists) :
    ValueList.Take value lists := by
  split at h
  · obtain ⟨list, hlist, rfl⟩ := map_eq_ok h
    exact take_readList hlist
  · cases h
    simp [ValueList.Take]

theorem given_listsOf {key : ListKey} {group : Option String} {values : List String} {lists : EventLists}
    (h : listsOf active key group values = .ok lists) : active.Given lists := by
  have hsides : listsOf active key group values =
      (if key.input then (readList key.sparse active.input group values).map ([·]) else pure []) >>= fun inputs =>
      (if key.target then (readList key.sparse active.target group values).map ([·]) else pure []) >>= fun targets =>
      pure ⟨inputs, targets⟩ := by
    unfold listsOf
    split <;> split <;> rfl
  rw [hsides] at h
  obtain ⟨inputs, hinputs, h⟩ := bind_eq_ok_iff.1 h
  obtain ⟨targets, htargets, h⟩ := bind_eq_ok_iff.1 h
  cases h
  exact ⟨take_side hinputs, take_side htargets⟩

theorem given_listsOfRuns {key : ListKey} {runs : Runs} {lists : EventLists}
    (h : listsOfRuns active key runs = .ok lists) : active.Given lists := by
  refine foldlM_keeps (P := fun _ lists => active.Given lists) ?_ given_empty h
  rintro _ before ⟨group, values⟩ after hbefore hafter
  obtain ⟨own, hown, rfl⟩ := map_eq_ok hafter
  exact hbefore.append (given_listsOf hown)

theorem given_readLists {tokens rest : List Token} {lists : EventLists}
    (h : readLists active tokens = .ok (lists, rest)) : active.Given lists := by
  fun_induction readLists active tokens generalizing lists rest with
  | case1 =>
    cases h
    exact given_empty
  | case2 =>
    cases h
    exact given_empty
  | case3 => cases h
  | case4 token tokens key _ runs after _ ih =>
    obtain ⟨first, hfirst, h⟩ := bind_eq_ok_iff.1 h
    obtain ⟨⟨more, remaining⟩, hmore, h⟩ := bind_eq_ok_iff.1 h
    cases h
    exact (given_listsOfRuns hfirst).append (ih hmore)

theorem given_readBlocks {declared : Option Nat} {tokens rest : List Token} {blocks : List Block}
    (h : readBlocks active declared tokens = .ok (blocks, rest)) : ∀ block ∈ blocks, active.Given block.lists := by
  fun_induction readBlocks active declared tokens generalizing blocks rest with
  | case1 => cases h
  | case2 => cases h
  | case3 tokens header after _ lists remaining hlists ih =>
    obtain ⟨⟨others, final⟩, hothers, h⟩ := bind_eq_ok_iff.1 h
    cases h
    exact List.forall_mem_cons.2 ⟨given_readLists hlists, ih hothers⟩
  | case4 =>
    cases h
    simp

/-- Events that blocks are applied to gain no other lists than those of the blocks. -/
theorem marks_mergeBlocks {blocks : List Block} (h : ∀ block ∈ blocks, active.Given block.lists)
    (declared : Option Nat) : ∀ event ∈ mergeBlocks declared blocks, active.Marks event := by
  have hindices {block : Block} (hblock : active.Given block.lists) (indices : List Nat) (events : Array Event)
      (hevents : ∀ event ∈ events, active.Marks event) :
      ∀ event ∈ indices.foldl (fun events index => events.modify index block.applyTo) events,
        active.Marks event := by
    induction indices generalizing events with
    | nil => exact hevents
    | cons index rest ih =>
      apply ih
      intro event hevent
      obtain ⟨i, hi, rfl⟩ := Array.mem_iff_getElem.1 hevent
      rw [Array.getElem_modify]
      have hold := hevents _ (Array.getElem_mem (Array.size_modify ▸ hi))
      split
      · exact Given.append hold hblock
      · exact hold
  have hblocks (blocks : List Block) (h : ∀ block ∈ blocks, active.Given block.lists) (events : Array Event)
      (hevents : ∀ event ∈ events, active.Marks event) :
      ∀ event ∈ blocks.foldl (fun events block =>
        block.header.indices.foldl (fun events index => events.modify index block.applyTo) events) events,
        active.Marks event := by
    induction blocks generalizing events with
    | nil => exact hevents
    | cons block rest ih =>
      obtain ⟨hblock, hrest⟩ := List.forall_mem_cons.1 h
      exact ih hrest _ (hindices hblock _ events hevents)
  intro event hevent
  refine hblocks blocks h _ ?_ event (Array.mem_toList_iff.1 hevent)
  intro fresh hfresh
  rw [Array.eq_of_mem_replicate hfresh]
  exact given_empty

theorem marks_readEvents {declared : Option Nat} {tokens : List Token} {events : List Event}
    (h : readEvents active declared tokens = .ok events) : ∀ event ∈ events, active.Marks event := by
  unfold readEvents at h
  split at h
  · obtain ⟨⟨blocks, rest⟩, hblocks, h⟩ := bind_eq_ok_iff.1 h
    obtain ⟨_, _, h⟩ := bind_eq_ok_iff.1 h
    cases h
    exact marks_mergeBlocks (given_readBlocks hblocks) declared
  · obtain ⟨⟨lists, rest⟩, hlists, h⟩ := bind_eq_ok_iff.1 h
    obtain ⟨_, _, h⟩ := bind_eq_ok_iff.1 h
    cases h
    intro event hevent
    rw [List.eq_of_mem_replicate hevent]
    exact given_readLists hlists

theorem marks_readExample {segment : List Token} {e : Example} (h : readExample active segment = .ok e) :
    ∀ event ∈ e.events, active.Marks event := by
  unfold readExample at h
  obtain ⟨⟨prelude, rest⟩, _, h⟩ := bind_eq_ok_iff.1 h
  obtain ⟨events, hevents, h⟩ := bind_eq_ok_iff.1 h
  cases h
  exact marks_readEvents hevents

/-- The examples of a text take the active values of its header. -/
theorem marks_readText {text : List Char} {contents : TextContents} (h : readText text = .ok contents) :
    ∀ e ∈ contents.examples, ∀ event ∈ e.events, (Active.ofHeader contents.header).Marks event := by
  have hsegments {header : SetHeader} {examples : List (List Token)}
      (h : (do
        let read ← examples.mapM (readExample (.ofHeader header))
        pure ({ header, examples := read } : TextContents)) = .ok contents) :
      ∀ e ∈ contents.examples, ∀ event ∈ e.events, (Active.ofHeader contents.header).Marks event := by
    obtain ⟨read, hread, h⟩ := bind_eq_ok_iff.1 h
    cases h
    intro e he
    obtain ⟨segment, _, hsegment⟩ := mem_of_mapM_eq_ok hread he
    exact marks_readExample hsegment
  unfold readText at h
  dsimp only at h
  split at h
  · obtain ⟨header, _, h⟩ := bind_eq_ok_iff.1 h
    exact hsegments h
  · exact hsegments h

end Example

namespace ExampleSet

/-- The set's own values of listed units, 1 where it has none. -/
def active (s : ExampleSet) : Example.Active := .ofHeader s.header

variable {s later : ExampleSet} {text : String} {count : Nat}

/-- The lists that a text adds take the values of its header. On a side where the header gives one,
or where the set had none before, that is the value of the set from then on. -/
theorem readText_active (h : s.readText text = .ok (count, later)) :
    ∃ contents, Example.readText text.toList = .ok contents ∧ later = s.addContents contents ∧
      ∀ e ∈ contents.examples, ∀ event ∈ e.events,
        (Example.Active.ofHeader contents.header).Marks event ∧
        (contents.header.active.input.isSome ∨ s.header.active.input = none →
          ValueList.Take later.active.input event.inputs) ∧
        (contents.header.active.target.isSome ∨ s.header.active.target = none →
          ValueList.Take later.active.target event.targets) := by
  obtain ⟨contents, hcontents, h⟩ := bind_eq_ok_iff.1 h
  cases h
  -- a value of the header stands in front of what the set had
  have hside {own before : Option Binary64} (h : own.isSome ∨ before = none) : own.or before = own := by
    obtain hsome | rfl := h
    · exact Option.or_of_isSome hsome
    · exact Option.or_none
  refine ⟨contents, hcontents, rfl, fun e he event hevent => ?_⟩
  have hmarks := Example.marks_readText hcontents e he event hevent
  refine ⟨hmarks, fun h => ?_, fun h => ?_⟩
  · have hinput : (s.addContents contents).header.active.input = contents.header.active.input := hside h
    rw [active, Example.Active.ofHeader, hinput]
    exact hmarks.inputs
  · have htarget : (s.addContents contents).header.active.target = contents.header.active.target := hside h
    rw [active, Example.Active.ofHeader, htarget]
    exact hmarks.targets

/-- A header in front of the examples is heard. -/
theorem readText_active_headed :
    let list : ValueList := ⟨none, .sparse [0] (.ofRatio false 1 2)⟩
    let later : ExampleSet :=
      { label := "set", header := { active := { input := some (.ofRatio false 1 2) } }
        examples := [{ name := some "a", events := [{ inputs := [list] }] }], loaded := true }
    ({ label := "set" } : ExampleSet).readText "actI: 0.5 ; name: a i: 0 ;" = .ok (1, later) ∧
      ∀ e ∈ later.examples, ∀ event ∈ e.events, ValueList.Take later.active.input event.inputs := by
  intro list later
  have hread : ({ label := "set" } : ExampleSet).readText "actI: 0.5 ; name: a i: 0 ;" = .ok (1, later) := by
    decide +kernel
  obtain ⟨contents, _, hlater, hmarks⟩ := readText_active hread
  have hexamples : later.examples = contents.examples := congrArg examples hlater
  refine ⟨hread, fun e he event hevent => ?_⟩
  rw [hexamples] at he
  exact (hmarks e he event hevent).2.1 (.inr rfl)

/-- A set that gives listed units 0.5 reads a list that gives its unit 1. -/
theorem readText_ignores_active :
    let header : SetHeader := { active := { input := some (.ofRatio false 1 2) } }
    let list : ValueList := ⟨none, .sparse [0] (.ofNat 1)⟩
    let later : ExampleSet :=
      { label := "set", header, examples := [{ name := some "a", events := [{ inputs := [list] }] }], loaded := true }
    ({ label := "set", header } : ExampleSet).readText "name: a i: 0 ;" = .ok (1, later) ∧
      ¬ ∀ e ∈ later.examples, ∀ event ∈ e.events, ValueList.Take later.active.input event.inputs := by
  intro header list later
  refine ⟨by decide +kernel, fun h => ?_⟩
  have htaken := h _ List.mem_cons_self _ List.mem_cons_self list List.mem_cons_self [0] (.ofNat 1) rfl
  exact absurd htaken (by decide +kernel)

end ExampleSet

end PerceptronMesh

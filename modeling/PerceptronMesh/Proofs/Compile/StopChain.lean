import Mathlib.Data.List.Infix
import PerceptronMesh.Proofs.Compile.Audit
import PerceptronMesh.Proofs.Partition.Split
import PerceptronMesh.Proofs.Payload.Threshold
import PerceptronMesh.Proofs.Topology.Outputs

/-!
The stop decision in a compiled graph. It goes along the Threshold units of the output groups,
one to the next, and the last of them tells all other units. Threshold units are loaded with the
number of decisions that reach them along the path, those of the broadcast not counted.
-/

namespace PerceptronMesh

section Pairs

variable {α : Type} {l : List α} {a b other : α}

theorem pair_infix_iff : [a, b] <:+: l ↔ ∃ i : Nat, l[i]? = some a ∧ l[i + 1]? = some b := by
  rw [List.infix_iff_getElem?]
  constructor
  · rintro ⟨i, _, hpair⟩
    refine ⟨i, by simpa using hpair 0 (by simp), ?_⟩
    rw [Nat.add_comm]
    exact hpair 1 (by simp)
  · rintro ⟨i, hfirst, hsecond⟩
    obtain ⟨hlt, _⟩ := List.getElem?_eq_some_iff.1 hsecond
    refine ⟨i, by simp only [List.length_cons, List.length_nil]; omega, ?_⟩
    rintro (_ | _ | j) hj
    · simpa using hfirst
    · simpa [Nat.add_comm] using hsecond
    · simp only [List.length_cons, List.length_nil] at hj
      omega

/-- Without repeats, what follows a member is determined. -/
theorem eq_of_pair_infix (hl : l.Nodup) (h : [a, b] <:+: l) (hother : [a, other] <:+: l) : b = other := by
  obtain ⟨i, hi, hnext⟩ := pair_infix_iff.1 h
  obtain ⟨j, hj, hjnext⟩ := pair_infix_iff.1 hother
  obtain rfl := (List.getElem?_inj (List.getElem?_eq_some_iff.1 hi).1 hl).1 (hi.trans hj.symm)
  exact Option.some.inj (hnext.symm.trans hjnext)

/-- Without repeats, nothing follows the last member. -/
theorem getLast?_ne_of_pair_infix (hl : l.Nodup) (h : [a, b] <:+: l) : l.getLast? ≠ some a := by
  intro hlast
  obtain ⟨i, hi, hnext⟩ := pair_infix_iff.1 h
  rw [List.getLast?_eq_getElem?] at hlast
  have hsame := (List.getElem?_inj (List.getElem?_eq_some_iff.1 hi).1 hl).1 (hi.trans hlast.symm)
  have hlt := (List.getElem?_eq_some_iff.1 hnext).1
  omega

end Pairs

/-- Decisions go from each unit of a path to the next and to nobody else, and from the last one to
all units but itself. -/
structure Graph.StopsAlong (g : Graph) (path : List UnitId) : Prop where
  nodup : path.Nodup
  next : ∀ a b, [a, b] <:+: path → ∃ e, g.outEdges a .stop = [e] ∧ e.target = b
  broadcast : ∀ last, path.getLast? = some last → ((g.outEdges last .stop).map (·.target)).Perm
    ((g.units.toList.map (·.id)).filter (· ≠ last))
  silent : ∀ id, id ∉ path → g.outEdges id .stop = []

namespace Plan

/-- Threshold units of the stop chain. -/
def stopPath (p : Plan) : List UnitId := p.stopChain.map thresholdOf

variable {p : Plan}

theorem mem_stopPath {id : UnitId} : id ∈ p.stopPath ↔ ∃ x ∈ p.stopChain, thresholdOf x = id :=
  List.mem_map

theorem pair_infix_stopPath {a b : UnitId} : [a, b] <:+: p.stopPath ↔
    ∃ (i : Nat) (x y : Subgroup), p.stopChain[i]? = some x ∧ p.stopChain[i + 1]? = some y ∧
      a = thresholdOf x ∧ b = thresholdOf y := by
  simp only [pair_infix_iff, stopPath, List.getElem?_map, Option.map_eq_some_iff]
  constructor
  · rintro ⟨i, ⟨x, hx, rfl⟩, y, hy, rfl⟩
    exact ⟨i, x, y, hx, hy, rfl, rfl⟩
  · rintro ⟨i, x, y, hx, hy, rfl, rfl⟩
    exact ⟨i, ⟨x, hx, rfl⟩, y, hy, rfl⟩

namespace Coherent

variable (hp : p.Coherent)
include hp

/-- A group's subgroups are numbered from the first one on. -/
theorem map_thresholdOf_subgroupsOf (group : GroupId) :
    (p.subgroupsOf group).map thresholdOf = (List.range (p.subgroupCount group)).map (.threshold group) := by
  refine hp.map_subgroupsOf (by simp) ?_
  rintro sg hsg rfl
  rw [List.getElem?_map, List.getElem?_range (hp.place sg hsg).1, Option.map_some, thresholdOf]

theorem nodup_stopPath : p.stopPath.Nodup := by
  refine List.Nodup.map_on ?_ hp.nodup_stopChain
  intro x hx y hy hsame
  exact hp.thresholdOf_inj (hp.mem_stopChain.1 hx).1 (hp.mem_stopChain.1 hy).1 hsame

theorem getLast?_stopPath : p.stopPath.getLast? = p.lastOutput.map thresholdOf := by
  rw [stopPath, List.getLast?_map, hp.lastOutput_eq]

/-- Decisions go along the path, and from its end to all units but itself. -/
theorem wired_stop_iff_path {units : List UnitId} {source target : UnitId} {packets : UInt32} :
    p.Wired units source target .stop packets ↔ packets = 1 ∧ ([source, target] <:+: p.stopPath ∨
      p.stopPath.getLast? = some source ∧ target ∈ units ∧ target ≠ source) := by
  rw [wired_stop_iff, pair_infix_stopPath, hp.getLast?_stopPath]
  simp only [Option.map_eq_some_iff]
  constructor
  · rintro ⟨hone, hpair | ⟨last, hlast, rfl, hmem, hne⟩⟩
    · exact ⟨hone, .inl hpair⟩
    · exact ⟨hone, .inr ⟨⟨last, hlast, rfl⟩, hmem, hne⟩⟩
  · rintro ⟨hone, hpair | ⟨⟨last, hlast, rfl⟩, hmem, hne⟩⟩
    · exact ⟨hone, .inl hpair⟩
    · exact ⟨hone, .inr ⟨last, hlast, rfl, hmem, hne⟩⟩

/-- The unit in front of a Threshold unit is that of the chain predecessor. -/
theorem pair_infix_iff_chainPredecessor {x : Subgroup} (hx : x ∈ p.subgroups) {id : UnitId} :
    [id, thresholdOf x] <:+: p.stopPath ↔ ∃ y, p.chainPredecessor x = some y ∧ id = thresholdOf y := by
  simp only [pair_infix_stopPath, hp.chainPredecessor_eq_some_iff]
  constructor
  · rintro ⟨i, y, z, hi, hnext, rfl, hsame⟩
    obtain rfl := hp.thresholdOf_inj hx (hp.mem_of_stopChain hnext) hsame
    exact ⟨y, ⟨i, hi, hnext⟩, rfl⟩
  · rintro ⟨y, ⟨i, hi, hnext⟩, rfl⟩
    exact ⟨i, y, x, hi, hnext, rfl, rfl⟩

/-- Of the senders of decisions only the predecessor is in front. -/
theorem filter_thresholdSenders {x : Subgroup} (hx : x ∈ p.subgroups) :
    (p.thresholdSenders x .stop).filter (fun id => [id, thresholdOf x] <:+: p.stopPath) =
      (p.chainPredecessor x).toList.map thresholdOf := by
  have hbefore : ∀ id ∈ (p.chainPredecessor x).toList.map thresholdOf,
      [id, thresholdOf x] <:+: p.stopPath := by
    intro id hid
    obtain ⟨y, hy, rfl⟩ := List.mem_map.1 hid
    exact (hp.pair_infix_iff_chainPredecessor hx).2 ⟨y, Option.mem_toList.1 hy, rfl⟩
  -- the end of the path is in front of nobody, so its broadcast is left out
  have hlast : ∀ id ∈ p.stopSender, ¬[id, thresholdOf x] <:+: p.stopPath := by
    intro id hid hpair
    apply getLast?_ne_of_pair_infix hp.nodup_stopPath hpair
    rw [hp.getLast?_stopPath]
    exact Option.mem_toList.1 hid
  have hnone : (if p.lastOutput.isSome && !p.isLastOutput x then p.stopSender else []).filter
      (fun id => [id, thresholdOf x] <:+: p.stopPath) = [] := by
    refine List.filter_eq_nil_iff.2 ?_
    intro id hid
    split at hid
    · simpa using hlast id hid
    · cases hid
  rw [thresholdSenders, List.filter_append, List.filter_eq_self.2 (by simpa using hbefore), hnone,
    List.append_nil]

end Coherent

namespace Drawn

variable {g : Graph} (hg : p.Drawn g) (hp : p.Coherent)
include hg hp

/-- Where the decisions of a unit go. -/
theorem stopTargets_perm {id : UnitId} {targets : List UnitId} (hnodup : targets.Nodup)
    (hmem : ∀ target, target ∈ targets ↔ [id, target] <:+: p.stopPath ∨
      p.stopPath.getLast? = some id ∧ target ∈ g.units.toList.map (·.id) ∧ target ≠ id) :
    ((g.outEdges id .stop).map (·.target)).Perm targets := by
  refine hg.realizes.outEdges_perm hnodup ?_
  intro target
  simp only [hmem, mem_wires_iff, hp.wired_stop_iff_path, exists_eq_left, hg.units_eq]

theorem stopsAlong : g.StopsAlong p.stopPath where
  nodup := hp.nodup_stopPath
  next := by
    intro a b h
    have hnotLast := getLast?_ne_of_pair_infix hp.nodup_stopPath h
    have hperm : ((g.outEdges a .stop).map (·.target)).Perm [b] := by
      refine hg.stopTargets_perm hp (List.nodup_singleton b) ?_
      intro target
      simp only [List.mem_singleton, hnotLast, false_and, or_false]
      constructor
      · rintro rfl
        exact h
      · exact fun hother => eq_of_pair_infix hp.nodup_stopPath hother h
    exact List.map_eq_singleton_iff.1 (List.perm_singleton.1 hperm)
  broadcast := by
    intro last h
    have hids : (g.units.toList.map (·.id)).Nodup := by
      rw [hg.units_eq]
      exact hp.nodup_ids
    have hend (target : UnitId) : ¬[last, target] <:+: p.stopPath :=
      fun hpair => getLast?_ne_of_pair_infix hp.nodup_stopPath hpair h
    refine hg.stopTargets_perm hp (hids.filter _) ?_
    intro target
    simp only [hend, h, true_and, false_or, List.mem_filter, decide_eq_true_eq]
  silent := by
    intro id h
    have hperm : ((g.outEdges id .stop).map (·.target)).Perm [] := by
      refine hg.stopTargets_perm hp List.nodup_nil ?_
      intro target
      simp only [List.not_mem_nil, false_iff, not_or, not_and]
      exact ⟨fun hpair => h (hpair.subset List.mem_cons_self),
        fun hlast => absurd (List.mem_of_getLast? hlast) h⟩
    exact List.map_eq_nil_iff.1 hperm.eq_nil

/-- A Threshold unit hears its predecessor and the end of the path. -/
theorem stopSources_perm {x : Subgroup} (hx : x ∈ p.subgroups) :
    ((g.inEdges (thresholdOf x) .stop).map (·.source)).Perm (p.thresholdSenders x .stop) := by
  have hid : (MeshUnit.threshold x).id = thresholdOf x := rfl
  have hperm := (hg.inEdges_perm (hp.hears_threshold hx .stop)).map (·.1)
  simpa only [List.map_map, Function.comp_def, List.map_id', hid] using hperm

theorem length_stops_of_predecessor {x : Subgroup} (hx : x ∈ p.subgroups) :
    ((g.inEdges (thresholdOf x) .stop).filter fun e => [e.source, thresholdOf x] <:+: p.stopPath).length =
      p.expectedDecisions (.threshold x) := by
  have hperm := (hg.stopSources_perm hp hx).filter fun id => [id, thresholdOf x] <:+: p.stopPath
  rw [hp.filter_thresholdSenders hx, List.filter_map] at hperm
  have hlength := hperm.length_eq
  rw [List.length_map, List.length_map, ← hp.expectedDecisions_threshold hx] at hlength
  exact hlength

/-- In the middle of the path a unit hears two others. -/
theorem stopSources_of_middle {a b last : UnitId} (hpair : [a, b] <:+: p.stopPath)
    (hlast : p.stopPath.getLast? = some last) (hne : b ≠ last) :
    ((g.inEdges b .stop).map (·.source)).Perm [a, last] := by
  obtain ⟨y, hy, rfl⟩ := mem_stopPath.1 (hpair.subset (List.mem_cons_of_mem a List.mem_cons_self))
  have hmem := (hp.mem_stopChain.1 hy).1
  obtain ⟨before, hbefore, rfl⟩ := (hp.pair_infix_iff_chainPredecessor hmem).1 hpair
  rw [hp.getLast?_stopPath, Option.map_eq_some_iff] at hlast
  obtain ⟨z, hz, rfl⟩ := hlast
  have hother : p.isLastOutput y = false := by
    rw [Bool.eq_false_iff, Ne, isLastOutput_iff, hz]
    rintro ⟨rfl⟩
    exact hne rfl
  have hsenders : p.thresholdSenders y .stop = [thresholdOf before, thresholdOf z] := by
    simp [thresholdSenders, stopSender, hbefore, hz, hother]
  exact hsenders ▸ hg.stopSources_perm hp hmem

end Drawn

end Plan

namespace Topology

variable {t : Topology} {limits : Limits} {compiled : CompiledGraph}

/-- Threshold units of the output groups, group by group in the order in which the groups were
added, and part by part within a group. -/
def stopPath (t : Topology) : List UnitId := t.outputSubgroups.map fun (g, subgroup) => .threshold g.id subgroup

theorem mem_stopPath {id : UnitId} : id ∈ t.stopPath ↔
    ∃ g ∈ t.outputGroups, ∃ subgroup < g.subgroups, id = .threshold g.id subgroup := by
  simp only [stopPath, outputSubgroups, List.mem_map, List.mem_flatMap, List.mem_range, Prod.exists]
  constructor
  · rintro ⟨g, subgroup, ⟨_, hg, _, hlt, ⟨rfl, rfl⟩⟩, rfl⟩
    exact ⟨g, hg, subgroup, hlt, rfl⟩
  · rintro ⟨g, hg, subgroup, hlt, rfl⟩
    exact ⟨g, subgroup, ⟨g, hg, subgroup, hlt, rfl⟩, rfl⟩

theorem Sound.subgroupCount_id {p : Plan} (ht : t.Sound) (h : Plan.make t limits = .ok p) {g : Group}
    (hg : g ∈ t.groups) : p.subgroupCount g.id = g.subgroups := by
  obtain ⟨_, _, hfields⟩ := Plan.make_eq_ok_iff.1 h
  have hget : t.groups[g.id]? = some g := ht.group?_id hg
  simp [hfields, Plan.subgroupCount, hget]

/-- The plan's chain follows the output groups. -/
theorem Sound.stopPath_eq {p : Plan} (ht : t.Sound) (hchain : t.ChainsOutputs)
    (h : Plan.make t limits = .ok p) : p.stopPath = t.stopPath := by
  have hp := ht.coherent h
  obtain ⟨_, _, hfields⟩ := Plan.make_eq_ok_iff.1 h
  have hgroups : p.outputChain = t.outputGroups.map (·.id) := by
    rw [hfields]
    exact hchain
  rw [Plan.stopPath, Plan.stopChain, hgroups, List.flatMap_map, List.map_flatMap, stopPath,
    outputSubgroups, List.map_flatMap]
  refine List.flatMap_congr fun g hg => ?_
  rw [hp.map_thresholdOf_subgroupsOf, ht.subgroupCount_id h (List.mem_of_mem_filter hg),
    List.map_map]
  rfl

/-- The path visits the Threshold units of the output groups. -/
theorem mem_stopPath_iff_unit {p : Plan} {g : Graph} (ht : t.Sound) (h : Plan.make t limits = .ok p)
    (hg : p.Drawn g) {id : UnitId} : id ∈ t.stopPath ↔
      ∃ u ∈ g.units, u.id = id ∧ u.role = .threshold ∧ ∃ output ∈ t.outputGroups, output.id = u.group := by
  have hp := ht.coherent h
  rw [mem_stopPath]
  constructor
  · rintro ⟨output, houtput, subgroup, hlt, rfl⟩
    rw [← ht.subgroupCount_id h (List.mem_of_mem_filter houtput)] at hlt
    obtain ⟨x, hx, hgroup, hsubgroup⟩ := hp.complete hlt
    refine ⟨.threshold x, hg.mem_units_iff.2 (.threshold hx), ?_, rfl, output, houtput, hgroup.symm⟩
    rw [← hgroup, ← hsubgroup]
    rfl
  · rintro ⟨u, hu, rfl, hrole, output, houtput, hid⟩
    cases hg.mem_units_iff.1 hu with
    | @threshold x hx =>
      have hgroup : output.id = x.group := hid
      refine ⟨output, houtput, x.subgroup, ?_, by rw [hgroup]; rfl⟩
      rw [← ht.subgroupCount_id h (List.mem_of_mem_filter houtput), hgroup]
      exact (hp.place x hx).1
    | input | sum | weight => cases hrole

/-- The Core region of a Threshold unit, which every payload of the unit holds, announces the
decisions of the chain predecessor. -/
theorem exists_core_decisions {s : PayloadSource} {x : Subgroup} {g : Group}
    (hg : s.topology.group? x.group = some g) : ∃ core, s.coreRegion (.threshold x) = .ok core ∧
      ThresholdCore.decisionsOf core = s.compiled.plan.expectedDecisions (.threshold x) ∧
      ∀ stage p, s.build (.threshold x) stage = .ok p → p.region? .core = some core := by
  have hcore := PayloadSource.coreRegion_threshold hg
  refine ⟨_, hcore, ?_, fun _ _ hbuild => PayloadSource.core_of_build hcore hbuild⟩
  rw [ThresholdCore.decisionsOf_bytes]
  refine UInt32.toNat_ofNat_of_lt' (Nat.lt_of_le_of_lt (Plan.expectedDecisions_le_one _) ?_)
  decide

/-- The decision to stop visits the Threshold units of the output groups one after another and
reaches every unit of the graph. A Threshold unit is loaded with the number of decisions from the
unit in front of it, and in the middle of the path it hears the end of the path as well. -/
theorem Reachable.stop_spec (ht : t.Reachable) (h : compile t limits = .ok compiled) :
    (t.outputGroups = [] → ∀ e ∈ compiled.graph.edges, e.category ≠ .stop) ∧
    (t.outputGroups ≠ [] → t.stopPath ≠ []) ∧
    (∀ id, id ∈ t.stopPath ↔ ∃ u ∈ compiled.graph.units, u.id = id ∧ u.role = .threshold ∧
      ∃ output ∈ t.outputGroups, output.id = u.group) ∧
    compiled.graph.StopsAlong t.stopPath ∧
    (∀ u ∈ compiled.graph.units, u.role = .threshold →
      ∀ s : PayloadSource, s.compiled = compiled → s.topology.frame = t.frame →
        ∃ core, s.coreRegion u = .ok core ∧
          ThresholdCore.decisionsOf core =
            ((compiled.graph.inEdges u.id .stop).filter fun e => [e.source, u.id] <:+: t.stopPath).length ∧
          ∀ stage p, s.build u stage = .ok p → p.region? .core = some core) ∧
    ∀ a b last, [a, b] <:+: t.stopPath → t.stopPath.getLast? = some last → b ≠ last →
      a ≠ last ∧ ((compiled.graph.inEdges b .stop).map (·.source)).Perm [a, last] := by
  obtain ⟨hplan, hp, hg⟩ := ht.sound.compile_eq_ok h
  have hpath := ht.sound.stopPath_eq ht.chainsOutputs hplan
  have hstops := hg.stopsAlong hp
  refine ⟨?_, ?_, fun id => mem_stopPath_iff_unit ht.sound hplan hg, hpath ▸ hstops, ?_, ?_⟩
  · intro hnone e he hcategory
    have hout : e ∈ compiled.graph.outEdges e.source .stop :=
      Graph.Realizes.mem_outEdges.2 ⟨he, rfl, hcategory⟩
    have hempty : e.source ∉ compiled.plan.stopPath := by
      rw [hpath, stopPath, outputSubgroups, hnone]
      exact List.not_mem_nil
    rw [hstops.silent _ hempty] at hout
    cases hout
  · intro hsome hnil
    exact ht.sound.outputSubgroups_ne_nil hsome (List.map_eq_nil_iff.1 hnil)
  · rintro u hu hrole s rfl hframe
    cases hg.mem_units_iff.1 hu with
    | @threshold x hx =>
      -- payloads are built from whatever data the groups hold by then, but over the same frame
      have hother : Plan.make s.topology limits = .ok s.compiled.plan := by
        rw [← plan_frame, hframe, plan_frame, hplan]
      obtain ⟨group, hgroup, _⟩ := (ht.sound.of_frame hframe.symm).exists_group_of_subgroup hother hx
      obtain ⟨core, hcore, hdecisions, hbuilt⟩ := exists_core_decisions hgroup
      refine ⟨core, hcore, ?_, hbuilt⟩
      rw [hdecisions, ← hpath]
      exact (hg.length_stops_of_predecessor hp hx).symm
    | input | sum | weight => cases hrole
  · intro a b last hpair hlast hne
    rw [← hpath] at hpair hlast
    refine ⟨?_, hg.stopSources_of_middle hp hpair hlast hne⟩
    rintro rfl
    exact getLast?_ne_of_pair_infix hp.nodup_stopPath hpair hlast

/-- Two output groups with a hidden group between them, the first in two parts: the second part
hears the first one and the other group. -/
theorem stop_spec_between : ∃ t first second third compiled, make 2 = .ok t ∧
    t.addGroup 3 (Roles.ofList [.output]) none none none = .ok (1, first) ∧
    first.addGroup 1 (Roles.ofList [.hidden]) none none none = .ok (2, second) ∧
    second.addGroup 1 (Roles.ofList [.output]) none none none = .ok (3, third) ∧
    compile third {} = .ok compiled ∧
    third.stopPath = [.threshold 1 0, .threshold 1 1, .threshold 3 0] ∧
    ((compiled.graph.inEdges (.threshold 1 1) .stop).map (·.source)).Perm
      [.threshold 1 0, .threshold 3 0] := by
  obtain ⟨t, first, second, third, p, hmake, hfirst, hsecond, hthird, hplan, hpath⟩ :
      ∃ t first second third p, make 2 = .ok t ∧
        t.addGroup 3 (Roles.ofList [.output]) none none none = .ok (1, first) ∧
        first.addGroup 1 (Roles.ofList [.hidden]) none none none = .ok (2, second) ∧
        second.addGroup 1 (Roles.ofList [.output]) none none none = .ok (3, third) ∧
        Plan.make third {} = .ok p ∧
        third.stopPath = [.threshold 1 0, .threshold 1 1, .threshold 3 0] :=
    ⟨_, _, _, _, _, rfl, rfl, rfl, rfl, rfl, by decide⟩
  have ht : Reachable third := .addGroup (.addGroup (.addGroup (.make hmake) hfirst) hsecond) hthird
  obtain ⟨g, hcompile, _⟩ := ht.sound.compile_eq hplan
  obtain ⟨_, _, _, _, _, hmiddle⟩ := Reachable.stop_spec ht hcompile
  have hpair : [.threshold 1 0, .threshold 1 1] <:+: third.stopPath := ⟨[], [.threshold 3 0], hpath.symm⟩
  have hlast : third.stopPath.getLast? = some (.threshold 3 0) := by rw [hpath]; rfl
  obtain ⟨_, hhears⟩ := hmiddle _ _ _ hpair hlast (by decide)
  exact ⟨t, first, second, third, _, hmake, hfirst, hsecond, hthird, hcompile, hpath, hhears⟩

end Topology

end PerceptronMesh

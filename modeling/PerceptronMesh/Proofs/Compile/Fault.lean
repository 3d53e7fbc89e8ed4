import PerceptronMesh.Proofs.Compile.Audit
import PerceptronMesh.Proofs.Topology.Links

/-!
Single faults in the wiring of a compiled graph: an edge that is missing, one too many, or one with
another count of packets. The audit finds each of them, where the edge leads to, and finds nothing else.
-/

namespace PerceptronMesh

/-- The second graph has the edges of the first but for one, which it lacks, has in addition or
gives another count of packets. The flag says whether it is the packets that differ. -/
inductive Graph.Fault (g h : Graph) (e : Edge) : Bool → Prop
  | missing : g.edges.toList.Perm (e :: h.edges.toList) → Fault g h e false
  | extra : h.edges.toList.Perm (e :: g.edges.toList) → g.contains e.source → g.contains e.target →
      ¬ g.hasEdge e.source e.target e.category → Fault g h e false
  | recounted {others : List Edge} {count : UInt32} : g.edges.toList.Perm (e :: others) →
      h.edges.toList.Perm ({ e with packets := count } :: others) → count ≠ e.packets → Fault g h e true

/-- Only one member of a list gives anything. -/
theorem flatMap_eq_of_forall_ne {α β : Type} {f : α → List β} {items : List α} {a : α} (hnodup : items.Nodup)
    (ha : a ∈ items) (hother : ∀ b ∈ items, b ≠ a → f b = []) : items.flatMap f = f a := by
  obtain ⟨before, after, rfl⟩ := List.append_of_mem ha
  obtain ⟨_, hafter, hbefore⟩ := List.nodup_append.1 hnodup
  have hleft : before.flatMap f = [] := List.flatMap_eq_nil_iff.2 fun b hb =>
    hother b (List.mem_append_left _ hb) (hbefore b hb a List.mem_cons_self)
  have hright : after.flatMap f = [] := List.flatMap_eq_nil_iff.2 fun b hb =>
    hother b (List.mem_append_right _ (List.mem_cons_of_mem _ hb))
      (ne_of_mem_of_not_mem hb (List.nodup_cons.1 hafter).1)
  rw [List.flatMap_append, List.flatMap_cons, hleft, hright, List.append_nil, List.nil_append]

/-- Another edge from a source of its own is one more sender. -/
theorem distinctSenders_cons {edges others : List Edge} {e : Edge} (hperm : edges.Perm (e :: others))
    (hnodup : (edges.map (·.source)).Nodup) : distinctSenders edges = distinctSenders others + 1 := by
  have hrest : (others.map (·.source)).Nodup := (List.nodup_cons.1 ((hperm.map (·.source)).nodup_iff.1 hnodup)).2
  rw [distinctSenders_eq_length hnodup, distinctSenders_eq_length hrest, hperm.length_eq, List.length_cons]

namespace Graph

variable {g h : Graph} {e : Edge} {others : List Edge} {id : UnitId} {c : Category} {packets : Bool}

/-- Edges of a list into a unit in a category. -/
def arriving (edges : List Edge) (id : UnitId) (c : Category) : List Edge :=
  edges.filter fun e => e.target = id && e.category = c

theorem inEdges_perm_cons (hedges : g.edges.toList.Perm (e :: others)) :
    (g.inEdges e.target e.category).Perm (e :: arriving others e.target e.category) := by
  have hperm := hedges.filter fun other => other.target = e.target && other.category = e.category
  rwa [List.filter_cons_of_pos (by simp)] at hperm

theorem inEdges_perm_of_ne (hedges : g.edges.toList.Perm (e :: others)) (hne : ¬(e.target = id ∧ e.category = c)) :
    (g.inEdges id c).Perm (arriving others id c) := by
  have hperm := hedges.filter fun other => other.target = id && other.category = c
  rwa [List.filter_cons_of_neg (by simpa using hne)] at hperm

/-- A fault leaves alone what arrives elsewhere. -/
theorem Fault.inEdges_perm (hfault : g.Fault h e packets) (hne : ¬(e.target = id ∧ e.category = c)) :
    (h.inEdges id c).Perm (g.inEdges id c) := by
  cases hfault with
  | missing hperm => exact (inEdges_perm_of_ne hperm hne).symm
  | extra hperm => exact inEdges_perm_of_ne hperm hne
  | recounted hg hh _ => exact (inEdges_perm_of_ne hh hne).trans (inEdges_perm_of_ne hg hne).symm

end Graph

namespace Plan.Drawn

variable {p : Plan} {g h : Graph} {e : Edge} {u : MeshUnit} {packets : Bool} (hg : p.Drawn g) (hp : p.Coherent)
include hg hp

theorem contains_target (he : e ∈ g.edges) : ∃ u ∈ g.units, u.id = e.target := by
  obtain ⟨_, htarget⟩ := hp.ends_mem (hg.wired_of_mem he)
  rw [← hg.units_eq] at htarget
  obtain ⟨u, hu, hid⟩ := List.mem_map.1 htarget
  exact ⟨u, Array.mem_toList_iff.1 hu, hid⟩

/-- The faulty edge leads to a unit. -/
theorem exists_unit (hfault : g.Fault h e packets) : ∃ u ∈ g.units, u.id = e.target := by
  cases hfault with
  | missing hperm | recounted hperm =>
    exact hg.contains_target hp (Array.mem_toList_iff.1 (hperm.mem_iff.2 List.mem_cons_self))
  | extra _ _ htarget => exact Graph.contains_iff.1 htarget

/-- An edge too few or too many is a sender too few or too many, and another count of packets is
another sum of them. -/
theorem exists_mismatch (hfault : g.Fault h e packets) (hu : u ∈ g.units) (hid : u.id = e.target) :
    ∃ expected wired, p.mismatch? u e.category (h.inEdges u.id e.category) =
      some ⟨e.target, e.category, packets, expected, wired⟩ := by
  obtain ⟨hsenders, hpackets⟩ := hg.senders_eq_and_packets_eq hp hu e.category
  have hnodup := hg.realizes.nodup_sources u.id e.category
  rw [hid] at hsenders hpackets hnodup ⊢
  cases hfault with
  | missing hperm =>
    have hin : (g.inEdges e.target e.category).Perm (e :: h.inEdges e.target e.category) :=
      Graph.inEdges_perm_cons hperm
    have hcount := distinctSenders_cons hin hnodup
    have hfewer : p.expectedSenders u e.category ≠ distinctSenders (h.inEdges e.target e.category) := by omega
    exact ⟨_, _, by rw [mismatch?, if_pos hfewer, hid]⟩
  | extra hperm _ _ hnew =>
    have hin : (h.inEdges e.target e.category).Perm (e :: g.inEdges e.target e.category) :=
      Graph.inEdges_perm_cons hperm
    have hfresh : e.source ∉ (g.inEdges e.target e.category).map (·.source) := by
      intro hmem
      obtain ⟨other, hother, hsource⟩ := List.mem_map.1 hmem
      obtain ⟨hother, htarget, hcategory⟩ := Graph.Realizes.mem_inEdges.1 hother
      exact hnew (Graph.hasEdge_iff.2 ⟨other, hother, by rw [Edge.key, hsource, htarget, hcategory]⟩)
    have hcount := distinctSenders_cons hin
      ((hin.map (·.source)).nodup_iff.2 (List.nodup_cons.2 ⟨hfresh, hnodup⟩))
    have hmore : p.expectedSenders u e.category ≠ distinctSenders (h.inEdges e.target e.category) := by omega
    exact ⟨_, _, by rw [mismatch?, if_pos hmore, hid]⟩
  | @recounted others count hbefore hafter hne =>
    have hin := Graph.inEdges_perm_cons hbefore
    have hout : (h.inEdges e.target e.category).Perm
        ({ e with packets := count } :: Graph.arriving others e.target e.category) := Graph.inEdges_perm_cons hafter
    have hsame := distinctSenders_perm hnodup ((hout.map (·.source)).trans (hin.map (·.source)).symm)
    have hother : p.expectedPackets u e.category ≠
        Numeric.total ((h.inEdges e.target e.category).map (·.packets)) := by
      rw [← hpackets, Numeric.total_words_perm (hin.map (·.packets)), Numeric.total_words_perm (hout.map (·.packets))]
      intro hsame
      exact hne ((UInt32.add_left_inj _).1 hsame).symm
    exact ⟨_, _, by rw [mismatch?, if_neg (by rw [hsame, hsenders]; simp), if_pos hother, hid]⟩

/-- The audit of a graph with the units of the compiled one, in any order, and with a single fault. -/
theorem audit_eq_singleton (hunits : h.units.toList.Perm g.units.toList) (hfault : g.Fault h e packets) :
    ∃ expected wired, p.audit h = [⟨e.target, e.category, packets, expected, wired⟩] := by
  have hmem {u : MeshUnit} (hu : u ∈ h.units.toList) : u ∈ g.units := Array.mem_toList_iff.1 (hunits.mem_iff.1 hu)
  have hids : (h.units.toList.map (·.id)).Nodup := by
    rw [(hunits.map _).nodup_iff, hg.units_eq]
    exact hp.nodup_ids
  obtain ⟨u, hu, hid⟩ := hg.exists_unit hp hfault
  have hhere : u ∈ h.units.toList := hunits.mem_iff.2 (Array.mem_toList_iff.2 hu)
  obtain ⟨expected, wired, hfound⟩ := hg.exists_mismatch hp hfault hu hid
  refine ⟨expected, wired, ?_⟩
  have hother : ∀ other ∈ h.units.toList, other ≠ u →
      (Category.all.filterMap fun c => p.mismatch? other c (h.inEdges other.id c)) = [] := by
    intro other hother hne
    refine List.filterMap_eq_nil_iff.2 fun c _ => hg.mismatch?_eq_none hp (hmem hother) (hfault.inEdges_perm ?_)
    rintro ⟨htarget, _⟩
    exact hne (List.inj_on_of_nodup_map hids hother hhere (htarget.symm.trans hid.symm))
  have hown : (Category.all.filterMap fun c => p.mismatch? u c (h.inEdges u.id c)) =
      [⟨e.target, e.category, packets, expected, wired⟩] := by
    rw [List.filterMap_eq_flatMap_toList, flatMap_eq_of_forall_ne (by decide) (Category.mem_all e.category), hfound]
    · rfl
    · intro c _ hne
      rw [hg.mismatch?_eq_none hp hu (hfault.inEdges_perm fun hsame => hne hsame.2.symm)]
      rfl
  rw [audit_eq, flatMap_eq_of_forall_ne (List.Nodup.of_map _ hids) hhere hother, hown]

end Plan.Drawn

namespace Topology

variable {t : Topology} {limits : Limits} {compiled : CompiledGraph} {h : Graph} {e : Edge} {packets : Bool}

/-- The audit of a wrongly wired graph finds a single fault, and finds nothing else. The topology may
have come about in any way. -/
theorem Obtained.audit_fault (ht : t.Obtained) (hok : compile t limits = .ok compiled)
    (hunits : h.units.toList.Perm compiled.graph.units.toList) (hfault : compiled.graph.Fault h e packets) :
    ∃ m, compiled.plan.audit h = [m] ∧ m.unit = e.target ∧ m.category = e.category ∧ m.packets = packets := by
  obtain ⟨_, hp, hdrawn⟩ := ht.sound.compile_eq_ok hok
  obtain ⟨expected, wired, haudit⟩ := hdrawn.audit_eq_singleton hp hunits hfault
  exact ⟨_, haudit, rfl, rfl, rfl⟩

/-- The bias alone: an edge into its Input unit is lost, then it is counted once more. -/
theorem audit_fault_input : ∃ t compiled e, make 2 = .ok t ∧ compile t {} = .ok compiled ∧
    e ∈ compiled.graph.edges ∧ e.target = .input 0 0 ∧
    (∃ m, compiled.plan.audit { compiled.graph with edges := (compiled.graph.edges.toList.erase e).toArray } = [m] ∧
      m.unit = .input 0 0 ∧ m.packets = false) ∧
    ∃ m, compiled.plan.audit { compiled.graph with
        edges := ({ e with packets := e.packets + 1 } :: compiled.graph.edges.toList.erase e).toArray } = [m] ∧
      m.unit = .input 0 0 ∧ m.packets = true := by
  obtain ⟨t, p, hmake, hplan, hunit⟩ : ∃ t p, make 2 = .ok t ∧ Plan.make t {} = .ok p ∧
      ∃ x ∈ p.subgroups, Plan.inputOf x = .input 0 0 := ⟨_, _, rfl, rfl, by decide⟩
  have ht : Obtained t := .make hmake
  obtain ⟨x, hx, hinput⟩ := hunit
  obtain ⟨g, hcompile, hdrawn⟩ := ht.sound.compile_eq hplan
  have hwired := ((ht.sound.coherent hplan).wired_input_iff hx (c := .forward)).2 ⟨List.mem_singleton_self _, rfl⟩
  obtain ⟨e, he, hkey⟩ := hdrawn.realizes.exists_edge ⟨_, _, _, _⟩ (Plan.mem_wires_iff.2 hwired)
  have htarget : e.target = .input 0 0 := (congrArg (·.2.1) hkey).trans hinput
  have hperm : g.edges.toList.Perm (e :: g.edges.toList.erase e) :=
    List.perm_cons_erase (Array.mem_toList_iff.2 he)
  obtain ⟨lost, hlost, hlostUnit, _, hlostFlag⟩ := Obtained.audit_fault
    (h := { g with edges := (g.edges.toList.erase e).toArray }) ht hcompile (.refl _) (.missing hperm)
  obtain ⟨more, hmore, hmoreUnit, _, hmoreFlag⟩ := Obtained.audit_fault
    (h := { g with edges := ({ e with packets := e.packets + 1 } :: g.edges.toList.erase e).toArray })
    ht hcompile (.refl _) (.recounted hperm (.refl _) (by simp))
  exact ⟨t, _, e, hmake, hcompile, he, htarget, ⟨lost, hlost, hlostUnit.trans htarget, hlostFlag⟩,
    more, hmore, hmoreUnit.trans htarget, hmoreFlag⟩

end Topology

end PerceptronMesh

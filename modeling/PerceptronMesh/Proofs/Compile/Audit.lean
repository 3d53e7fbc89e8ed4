import Mathlib.Logic.Function.Iterate
import PerceptronMesh.Compile.Basic
import PerceptronMesh.Proofs.Graph.Connection
import PerceptronMesh.Proofs.Graph.UnitId
import PerceptronMesh.Proofs.Scoreboard.Expected

/-!
What a compilation gives. A sound topology compiles whenever it can be planned, and every
unit of its graph hears exactly what the scoreboards expect, so that the audit never finds
a mismatch.
-/

namespace PerceptronMesh

/-- The graph has the plan's units and connections. -/
structure Plan.Drawn (p : Plan) (g : Graph) : Prop where
  units_eq : g.units.toList = p.units
  realizes : g.Realizes (p.wires (p.units.map (·.id)))

namespace CompileReport

theorem iterate_countSum (n : Nat) (r : CompileReport) :
    countSum^[n] r = { r with sumUnits := r.sumUnits + n } := by
  induction n with
  | zero => rfl
  | succ n ih =>
    rw [Function.iterate_succ_apply', ih]
    rfl

theorem iterate_countWeight (n : Nat) (r : CompileReport) :
    countWeight^[n] r = { r with weightUnits := r.weightUnits + n } := by
  induction n with
  | zero => rfl
  | succ n ih =>
    rw [Function.iterate_succ_apply', ih]
    rfl

end CompileReport

namespace Draft

variable {d : Draft} {p : Plan} {units more : List MeshUnit} {report : CompileReport}

/-- The draft with more units, and with whatever was counted. -/
def grown (d : Draft) (units : List MeshUnit) (report : CompileReport) : Draft :=
  ⟨{ d.graph with units := d.graph.units ++ units.toArray }, report⟩

theorem grown_grown {later : CompileReport} :
    (d.grown units report).grown more later = d.grown (units ++ more) later := by
  simp [grown]

/-- No identifier is given twice when the units are added. -/
def Fresh (d : Draft) (units : List MeshUnit) : Prop :=
  (d.graph.units.toList.map (·.id) ++ units.map (·.id)).Nodup

theorem Fresh.left (h : d.Fresh (units ++ more)) : d.Fresh units := by
  rw [Fresh, List.map_append, ← List.append_assoc] at h
  exact (List.nodup_append.1 h).1

theorem Fresh.right (h : d.Fresh (units ++ more)) (report : CompileReport) :
    (d.grown units report).Fresh more := by
  simpa [Fresh, grown] using h

/-- Units with new identifiers are added in order, and each is counted. -/
theorem addUnits_eq (count : CompileReport → CompileReport) (h : d.Fresh units) :
    d.addUnits count units = .ok (d.grown units (count^[units.length] d.report)) := by
  have hcounted : d.addUnits count units =
      (d.graph.addUnits units).map fun graph => ⟨graph, count^[units.length] d.report⟩ := by
    clear h
    induction units generalizing d with
    | nil => rfl
    | cons u rest ih =>
      rw [addUnits, Graph.addUnits, List.foldlM_cons, List.foldlM_cons]
      cases d.graph.addUnit u with
      | error e => rfl
      | ok added => exact ih
  rw [hcounted, Graph.addUnits_eq h]
  rfl

/-- What the units of one subgroup add to the counts. -/
theorem addSubgroup_eq {sg : Subgroup} (h : d.Fresh (p.unitsOf sg)) :
    addSubgroup p d sg = .ok (d.grown (p.unitsOf sg) { d.report with
      weightUnits := d.report.weightUnits + p.total
      sumUnits := d.report.sumUnits + p.tree.nodes
      ioUnits := d.report.ioUnits + 2 }) := by
  have hends := Graph.addUnits_eq h.left.left
  have hnodes := addUnits_eq CompileReport.countSum (h.left.right d.report.countEnds)
  have hweights := addUnits_eq CompileReport.countWeight
    (h.right { d.report.countEnds with sumUnits := d.report.sumUnits + p.tree.nodes })
  rw [CompileReport.iterate_countSum, List.length_map, List.length_range, grown_grown] at hnodes
  rw [CompileReport.iterate_countWeight, List.length_map, grown_grown] at hweights
  exact bind_eq_ok_iff.2 ⟨_, hends, bind_eq_ok_iff.2 ⟨_, hnodes, hweights⟩⟩

theorem addSubgroups_eq {sgs : List Subgroup} (h : d.Fresh (sgs.flatMap p.unitsOf)) :
    sgs.foldlM (addSubgroup p) d = .ok (d.grown (sgs.flatMap p.unitsOf) { d.report with
      weightUnits := d.report.weightUnits + sgs.length * p.total
      sumUnits := d.report.sumUnits + sgs.length * p.tree.nodes
      ioUnits := d.report.ioUnits + sgs.length * 2 }) := by
  induction sgs generalizing d with
  | nil => simp [grown, pure, Except.pure]
  | cons sg rest ih =>
    rw [List.flatMap_cons] at h ⊢
    refine bind_eq_ok_iff.2 ⟨_, addSubgroup_eq h.left, (ih (h.right _)).trans ?_⟩
    rw [grown_grown]
    simp only [grown, List.length_cons, Nat.succ_mul, Nat.add_assoc, Nat.add_comm]

/-- The units of a plan are created without a fault, and counted. -/
theorem create_eq (hp : p.Coherent) : create p = .ok
    { graph := { units := p.units.toArray }
      report := {
        subgroups := p.total
        weightUnits := p.total * p.total
        sumUnits := p.total * p.tree.nodes
        ioUnits := 2 * p.total } } := by
  have hfresh : Fresh {} (p.subgroups.flatMap p.unitsOf) := by
    simpa [Fresh, Graph.empty, Plan.units] using hp.nodup_ids
  refine bind_eq_ok_iff.2 ⟨_, addSubgroups_eq hfresh, ?_⟩
  simp [grown, Plan.units, Plan.total, Graph.empty, pure, Except.pure, Nat.mul_comm]

/-- A connection is counted if it is new. -/
theorem connect_eq {w : Wire} {added : Bool} {connected : Graph}
    (h : d.graph.connect w.source w.target w.category w.packets = .ok (added, connected)) :
    d.connect w = .ok ⟨connected, { d.report with edges := d.report.edges + added.toNat }⟩ := by
  rw [connect, h]
  cases added <;> rfl

/-- All connections of a list, whose ends have to be units of the graph. -/
theorem connectAll_eq {done wires : List Wire} (h : d.graph.Realizes done)
    (hends : ∀ w ∈ wires, d.graph.contains w.source ∧ d.graph.contains w.target) :
    ∃ wired new, d.connectAll wires = .ok ⟨wired, { d.report with edges := d.report.edges + new }⟩ ∧
      wired.edges.size = d.graph.edges.size + new ∧ wired.units = d.graph.units ∧
      wired.Realizes (done ++ wires) := by
  induction wires generalizing d done with
  | nil => exact ⟨d.graph, 0, rfl, rfl, rfl, by simpa using h⟩
  | cons w rest ih =>
    obtain ⟨hsource, htarget⟩ := hends w List.mem_cons_self
    obtain ⟨added, next, hstep, hunits, hsize, hnext⟩ := h.connect hsource htarget
    have hrest : ∀ wire ∈ rest, next.contains wire.source ∧ next.contains wire.target := by
      intro wire hwire
      simpa only [Graph.contains, Graph.unit?, hunits] using hends wire (List.mem_cons_of_mem _ hwire)
    obtain ⟨wired, new, hconnect, hedges, hsame, hrealizes⟩ := ih
      (d := ⟨next, { d.report with edges := d.report.edges + added.toNat }⟩) hnext hrest
    refine ⟨wired, added.toNat + new, ?_, by rw [hedges, hsize, Nat.add_assoc], hsame.trans hunits,
      by simpa using hrealizes⟩
    rw [← Nat.add_assoc]
    exact bind_eq_ok_iff.2 ⟨_, connect_eq hstep, hconnect⟩

end Draft

theorem distinctSenders_eq_length {edges : List Edge} (h : (edges.map (·.source)).Nodup) :
    distinctSenders edges = edges.length := by
  have hself {ids : List UnitId} (hids : ids.Nodup) : ids.eraseDups = ids := by
    induction ids with
    | nil => rfl
    | cons id rest ih =>
      obtain ⟨hfresh, hrest⟩ := List.nodup_cons.1 hids
      have hfilter : rest.filter (fun other => !other == id) = rest := by
        refine List.filter_eq_self.2 ?_
        intro other hother
        simpa using ne_of_mem_of_not_mem hother hfresh
      rw [List.eraseDups_cons, hfilter, ih hrest]
  rw [distinctSenders, hself h, List.length_map]

theorem distinctSenders_perm {edges others : List Edge} (hnodup : (others.map (·.source)).Nodup)
    (hperm : (edges.map (·.source)).Perm (others.map (·.source))) :
    distinctSenders edges = distinctSenders others := by
  rw [distinctSenders_eq_length hnodup, distinctSenders_eq_length (hperm.nodup_iff.2 hnodup)]
  simpa using hperm.length_eq

namespace Plan

variable {p : Plan} {g : Graph}

/-- What the counts of a compilation come to. -/
def report (p : Plan) (g : Graph) : CompileReport where
  subgroups := p.total
  weightUnits := p.total * p.total
  sumUnits := p.total * p.tree.nodes
  ioUnits := 2 * p.total
  edges := g.edges.size
  stopChain := p.stopChain.length

/-- Units are created and connected without a fault. -/
theorem Coherent.exists_drawn (hp : p.Coherent) : ∃ created wired,
    Draft.create p = .ok created ∧
    created.connectAll (p.wires (created.graph.units.toList.map (·.id))) = .ok wired ∧
    p.Drawn wired.graph ∧ { wired.report with stopChain := p.stopChain.length } = p.report wired.graph := by
  let created : Graph := { units := p.units.toArray }
  have hcontains {id : UnitId} (hid : id ∈ p.units.map (·.id)) : created.contains id := by
    obtain ⟨u, hu, rfl⟩ := List.mem_map.1 hid
    exact Graph.contains_iff.2 ⟨u, by simpa [created] using hu, rfl⟩
  have hends : ∀ w ∈ p.wires (p.units.map (·.id)),
      created.contains w.source ∧ created.contains w.target := by
    intro w hw
    obtain ⟨hsource, htarget⟩ := hp.ends_mem (mem_wires_iff.1 hw)
    exact ⟨hcontains hsource, hcontains htarget⟩
  have hcreate := Draft.create_eq hp
  obtain ⟨wired, new, hconnect, hsize, hunits, hrealizes⟩ :=
    Draft.connectAll_eq (d := ⟨created, _⟩) Graph.realizes_nil hends
  refine ⟨_, _, hcreate, hconnect, ⟨by rw [hunits], by simpa using hrealizes⟩, ?_⟩
  simp [report, hsize, created]

/-- The audit looks at each unit's edges in each category. -/
theorem audit_eq : p.audit g =
    g.units.toList.flatMap fun u => Category.all.filterMap fun c => p.mismatch? u c (g.inEdges u.id c) := by
  unfold audit Graph.inEdges
  simp only [List.filter_filter, Bool.and_comm]

namespace Drawn

variable (hg : p.Drawn g)
include hg

theorem mem_units_iff {u : MeshUnit} : u ∈ g.units ↔ p.HasUnit u := by
  rw [← Array.mem_toList_iff, hg.units_eq, Plan.mem_units_iff]

/-- Every edge is a connection that the plan asks for. -/
theorem wired_of_mem {e : Edge} (h : e ∈ g.edges) :
    p.Wired (p.units.map (·.id)) e.source e.target e.category e.packets :=
  Plan.mem_wires_iff.1 (hg.realizes.wire_mem e h)

/-- Every connection that the plan asks for is an edge. -/
theorem exists_edge_of_wired {source target : UnitId} {c : Category} {packets : UInt32}
    (h : p.Wired (p.units.map (·.id)) source target c packets) :
    ∃ e ∈ g.edges, e.source = source ∧ e.target = target ∧ e.category = c := by
  obtain ⟨e, he, hkey⟩ := hg.realizes.exists_edge ⟨source, target, c, packets⟩ (Plan.mem_wires_iff.2 h)
  simp only [Edge.key, Wire.key, Prod.mk.injEq] at hkey
  exact ⟨e, he, hkey⟩

/-- The edges into a unit are its senders. -/
theorem inEdges_perm {u : MeshUnit} {c : Category} {senders : List (UnitId × UInt32)}
    (h : p.Hears u c senders) :
    ((g.inEdges u.id c).map fun e => (e.source, e.packets)).Perm senders := by
  refine hg.realizes.inEdges_perm h.nodup ?_
  intro source packets
  rw [h.mem_iff, Plan.mem_wires_iff]

/-- What is wired into a unit is what its scoreboard expects. -/
theorem senders_eq_and_packets_eq (hp : p.Coherent) {u : MeshUnit} (hu : u ∈ g.units) (c : Category) :
    distinctSenders (g.inEdges u.id c) = p.expectedSenders u c ∧
      Numeric.total ((g.inEdges u.id c).map (·.packets)) = p.expectedPackets u c := by
  obtain ⟨senders, hhears⟩ := hp.exists_hears (hg.mem_units_iff.1 hu) c
  have hperm := hg.inEdges_perm hhears
  constructor
  · rw [distinctSenders_eq_length (hg.realizes.nodup_sources u.id c), ← hhears.length_eq,
      ← hperm.length_eq, List.length_map]
  · have hpackets := Numeric.total_words_perm (hperm.map (·.2))
    rw [List.map_map, hhears.packets_eq] at hpackets
    exact hpackets

/-- Packets that fit a word are expected as they are. -/
theorem packets_toNat (hp : p.Coherent) {u : MeshUnit} (hu : u ∈ g.units) {c : Category}
    (hfit : ((g.inEdges u.id c).map (·.packets.toNat)).sum < Nat.pow 2 32) :
    ((g.inEdges u.id c).map (·.packets.toNat)).sum = (p.expectedPackets u c).toNat := by
  rw [← (hg.senders_eq_and_packets_eq hp hu c).2, Numeric.toNat_total32, List.map_map]
  exact (Nat.mod_eq_of_lt hfit).symm

/-- Nothing is reported where the edges of the graph arrive, in any order. -/
theorem mismatch?_eq_none (hp : p.Coherent) {u : MeshUnit} (hu : u ∈ g.units) {c : Category}
    {incoming : List Edge} (hperm : incoming.Perm (g.inEdges u.id c)) : p.mismatch? u c incoming = none := by
  obtain ⟨hsenders, hpackets⟩ := hg.senders_eq_and_packets_eq hp hu c
  have hdistinct := distinctSenders_perm (hg.realizes.nodup_sources u.id c) (hperm.map (·.source))
  have htotal := Numeric.total_words_perm (hperm.map (·.packets))
  rw [mismatch?, hdistinct, htotal, hsenders, hpackets]
  simp only [ne_eq, not_true_eq_false, if_false]

theorem audit_eq_nil (hp : p.Coherent) : p.audit g = [] := by
  rw [audit_eq, List.flatMap_eq_nil_iff]
  intro u hu
  rw [List.filterMap_eq_nil_iff]
  intro c _
  exact hg.mismatch?_eq_none hp (Array.mem_toList_iff.1 hu) (.refl _)

theorem nodup_texts (hp : p.Coherent) : (g.units.toList.map (·.id.text)).Nodup := by
  rw [hg.units_eq]
  have hplaced {u : MeshUnit} (hu : u ∈ p.units) : u.id.Placed := by
    cases Plan.mem_units_iff.1 hu <;> trivial
  refine List.Nodup.map_on ?_ (List.Nodup.of_map _ hp.nodup_ids)
  intro a ha b hb htext
  exact List.inj_on_of_nodup_map hp.nodup_ids ha hb (UnitId.text_injective (hplaced ha) (hplaced hb) htext)

end Drawn

end Plan

theorem Limits.validate_error {limits : Limits} {e : Error} (h : limits.validate = .error e) :
    ∃ cause, e = .configuration cause := by
  unfold Limits.validate at h
  split_ifs at h <;> cases h <;> exact ⟨_, rfl⟩

/-- Planning fails for limits that are refused and for groups that are too large. -/
theorem Plan.make_cases (t : Topology) (limits : Limits) :
    (∃ cause, Plan.make t limits = .error (.configuration cause)) ∧
        (limits.validate ≠ .ok () ∨ ∃ g ∈ t.groups, limits.maxGroupUnits < g.units) ∨
      (∃ p, Plan.make t limits = .ok p) ∧
        ¬(limits.validate ≠ .ok () ∨ ∃ g ∈ t.groups, limits.maxGroupUnits < g.units) := by
  unfold Plan.make
  cases hvalid : limits.validate with
  | error e =>
    obtain ⟨cause, rfl⟩ := Limits.validate_error hvalid
    exact .inl ⟨⟨cause, rfl⟩, .inl (by simp)⟩
  | ok _ =>
    cases hsizes : t.oversizedGroups limits.maxGroupUnits with
    | nil =>
      refine .inr ⟨⟨_, rfl⟩, ?_⟩
      rintro (hinvalid | ⟨g, hg, hlarge⟩)
      · exact hinvalid rfl
      · have hmem : g ∈ t.oversizedGroups limits.maxGroupUnits :=
          List.mem_filter.2 ⟨hg, by simpa using hlarge⟩
        rw [hsizes] at hmem
        cases hmem
    | cons g rest =>
      have hmem : g ∈ t.oversizedGroups limits.maxGroupUnits := hsizes ▸ List.mem_cons_self
      obtain ⟨hg, hlarge⟩ := List.mem_filter.1 hmem
      exact .inl ⟨⟨_, rfl⟩, .inr ⟨g, hg, by simpa using hlarge⟩⟩

namespace Topology

variable {t : Topology} {limits : Limits}

/-- Whatever can be planned compiles. -/
theorem Sound.compile_eq (ht : t.Sound) {p : Plan} (h : Plan.make t limits = .ok p) :
    ∃ g, compile t limits = .ok ⟨p, g, p.report g⟩ ∧ p.Drawn g := by
  have hp := ht.coherent h
  obtain ⟨created, wired, hcreate, hconnect, hdrawn, hreport⟩ := hp.exists_drawn
  refine ⟨wired.graph, ?_, hdrawn⟩
  unfold compile
  rw [h]
  simp only [bind, Except.bind, hcreate, hconnect, hdrawn.audit_eq_nil hp, hreport]
  rfl

theorem Sound.compile_eq_ok (ht : t.Sound) {compiled : CompiledGraph}
    (h : compile t limits = .ok compiled) :
    Plan.make t limits = .ok compiled.plan ∧ compiled.plan.Coherent ∧
      compiled.plan.Drawn compiled.graph := by
  obtain ⟨p, hplan, _⟩ := bind_eq_ok_iff.1 h
  obtain ⟨g, hcompile, hdrawn⟩ := ht.compile_eq hplan
  cases h.symm.trans hcompile
  exact ⟨hplan, ht.coherent hplan, hdrawn⟩

/-- Compilation fails where planning does, and nowhere else. -/
theorem Sound.compile_cases (ht : t.Sound) (limits : Limits) :
    (∃ cause, compile t limits = .error (.configuration cause)) ∧
        (limits.validate ≠ .ok () ∨ ∃ g ∈ t.groups, limits.maxGroupUnits < g.units) ∨
      (∃ compiled, compile t limits = .ok compiled) ∧
        ¬(limits.validate ≠ .ok () ∨ ∃ g ∈ t.groups, limits.maxGroupUnits < g.units) := by
  obtain ⟨⟨cause, hfault⟩, hreason⟩ | ⟨⟨p, hplan⟩, hnone⟩ := Plan.make_cases t limits
  · refine .inl ⟨⟨cause, ?_⟩, hreason⟩
    unfold compile
    rw [hfault]
    rfl
  · obtain ⟨g, hok, _⟩ := ht.compile_eq hplan
    exact .inr ⟨⟨_, hok⟩, hnone⟩

end Topology

end PerceptronMesh

import PerceptronMesh.Proofs.Compile.Parted
import PerceptronMesh.Proofs.Placement.Loopback

/-!
The keys of a placed graph. Partitions with different names keep the different keys that they
are allocated, so a key that a unit sends under tells the unit and the category.
-/

namespace PerceptronMesh

open Numeric

namespace RoutingTable

variable {t : RoutingTable} {g : Graph} {name : String} {key : UInt32} {entries : List (String × UInt32)}

theorem insertEntry_perm (hnew : name ∉ entries.map (·.1)) :
    (insertEntry name key entries).Perm ((name, key) :: entries) := by
  induction entries with
  | nil => exact .refl _
  | cons first rest ih =>
    obtain ⟨held, old⟩ := first
    rw [List.map_cons, List.mem_cons, not_or] at hnew
    unfold insertEntry
    rw [if_neg hnew.1]
    by_cases hbefore : name < held
    · rw [if_pos hbefore]
    · rw [if_neg hbefore]
      exact ((ih hnew.2).cons _).trans (.swap _ _ _)

/-- A table of keys for different names has them all. -/
theorem entries_ofList_perm (hnames : (entries.map (·.1)).Nodup) : (ofList entries).entries.Perm entries := by
  have hfold (entries : List (String × UInt32)) (t : RoutingTable)
      (hnames : ((entries ++ t.entries).map (·.1)).Nodup) :
      (entries.foldl (fun t entry => t.insert entry.1 entry.2) t).entries.Perm (entries ++ t.entries) := by
    induction entries generalizing t with
    | nil => exact .refl _
    | cons entry rest ih =>
      rw [List.cons_append, List.map_cons, List.nodup_cons, List.map_append, List.mem_append, not_or] at hnames
      have hstep : (t.insert entry.1 entry.2).entries.Perm (entry :: t.entries) := insertEntry_perm hnames.1.2
      have hmoved : (rest ++ (t.insert entry.1 entry.2).entries).Perm (entry :: (rest ++ t.entries)) :=
        (hstep.append_left rest).trans List.perm_middle
      refine (ih _ ?_).trans hmoved
      rw [(hmoved.map _).nodup_iff, List.map_cons, List.nodup_cons, List.map_append, List.mem_append, not_or]
      exact hnames
  simpa [ofList, empty] using hfold entries empty (by simpa [empty] using hnames)

theorem mem_of_key? (h : t.key? name = some key) : (name, key) ∈ t.entries := by
  obtain ⟨before, after, hentries, _⟩ := List.lookup_eq_some_iff.1 h
  rw [hentries]
  exact List.mem_append_right _ List.mem_cons_self

/-- The key a unit sends under in a category: 0 if it does not, and none if the table has no
key for it. -/
def sendingKey (t : RoutingTable) (g : Graph) (unit : UnitId) (c : Category) : Option UInt32 :=
  (g.outgoingPartition unit c).elim (some 0) t.key?

theorem addKey_eq_ok {unit : UnitId} {keys later : RoutingKeys} {c : Category}
    (h : t.addKey g unit keys c = .ok later) (hfree : keys.get c = 0) :
    t.sendingKey g unit c = some (later.get c) ∧ ∀ other, other ≠ c → later.get other = keys.get other := by
  unfold addKey at h
  unfold sendingKey
  cases hname : g.outgoingPartition unit c with
  | none =>
    simp only [hname, Except.ok.injEq] at h
    subst h
    exact ⟨by rw [hfree]; rfl, fun _ _ => rfl⟩
  | some name =>
    cases hkey : t.key? name with
    | none => simp only [hname, hkey, reduceCtorEq] at h
    | some key =>
      simp only [hname, hkey, Except.ok.injEq] at h
      subst h
      refine ⟨?_, fun other hother => ?_⟩
      · rw [RoutingKeys.get_set, if_pos rfl, Option.elim_some, hkey]
      · rw [RoutingKeys.get_set, if_neg hother]

/-- A unit's keys are the ones it sends under. -/
theorem keysFor_eq_ok {unit : UnitId} {keys : RoutingKeys} (h : t.keysFor g unit = .ok keys) (c : Category) :
    t.sendingKey g unit c = some (keys.get c) := by
  have hrun (categories : List Category) (hnodup : categories.Nodup) (before later : RoutingKeys)
      (h : categories.foldlM (t.addKey g unit) before = .ok later)
      (hfree : ∀ c ∈ categories, before.get c = 0) :
      (∀ c ∈ categories, t.sendingKey g unit c = some (later.get c)) ∧
        ∀ c, c ∉ categories → later.get c = before.get c := by
    induction categories generalizing before with
    | nil =>
      obtain rfl := Except.ok.inj h
      exact ⟨fun _ hc => absurd hc List.not_mem_nil, fun _ _ => rfl⟩
    | cons first rest ih =>
      obtain ⟨hfirst, hrest⟩ := List.nodup_cons.1 hnodup
      rw [List.foldlM_cons] at h
      obtain ⟨next, hnext, hlater⟩ := bind_eq_ok_iff.1 h
      obtain ⟨hkey, hothers⟩ := addKey_eq_ok hnext (hfree first List.mem_cons_self)
      obtain ⟨hset, hkept⟩ := ih hrest next hlater fun c hc => by
        rw [hothers c (ne_of_mem_of_not_mem hc hfirst)]
        exact hfree c (List.mem_cons_of_mem _ hc)
      refine ⟨fun c hc => ?_, fun c hc => ?_⟩
      · obtain rfl | hc := List.mem_cons.1 hc
        · rw [hkey, hkept c hfirst]
        · exact hset c hc
      · obtain ⟨hne, hrest⟩ := not_or.1 (mt List.mem_cons.2 hc)
        rw [hkept c hrest, hothers c hne]
  exact (hrun Category.routingOrder (by decide) {} keys h fun _ _ => rfl).1 c (by cases c <;> decide)

/-- A key other than 0 is that of the traffic it is sent under for. -/
theorem exists_partition_of_sendingKey {u : MeshUnit} {c : Category} (hu : u ∈ g.units)
    (h : t.sendingKey g u.id c = some key) (hkey : key ≠ 0) :
    ∃ partition ∈ g.partitions, partition.origin = (u.id, c) ∧ (partition.name, key) ∈ t.entries := by
  unfold sendingKey at h
  cases hname : g.outgoingPartition u.id c with
  | none =>
    rw [hname, Option.elim_none, Option.some.injEq] at h
    exact absurd h.symm hkey
  | some name =>
    rw [hname, Option.elim_some] at h
    obtain ⟨partition, hpartition, horigin, rfl⟩ := Graph.exists_partition_of_outgoing hu hname
    exact ⟨partition, hpartition, horigin, mem_of_key? h⟩

theorem ne_zero_iff_of_sendingKey {unit : UnitId} {c : Category} (hzero : ∀ entry ∈ t.entries, entry.2 ≠ 0)
    (h : t.sendingKey g unit c = some key) : key ≠ 0 ↔ g.outEdges unit c ≠ [] := by
  unfold sendingKey at h
  rw [← not_iff_not, not_not, not_not, ← Graph.outgoingPartition_eq_none_iff]
  cases hname : g.outgoingPartition unit c with
  | none =>
    rw [hname, Option.elim_none, Option.some.injEq] at h
    exact iff_of_true h.symm rfl
  | some name =>
    rw [hname, Option.elim_some] at h
    exact iff_of_false (hzero _ (mem_of_key? h)) (Option.some_ne_none _)

/-- The table has a key for each of the graph's partitions, a multiple of the key space, and no
key other than 0 is sent under for two units or in two categories. -/
structure Separates (t : RoutingTable) (g : Graph) (keySpace : Nat) : Prop where
  names_perm : (t.entries.map (·.1)).Perm (g.partitions.map (·.name))
  key_ne_zero : ∀ entry ∈ t.entries, entry.2 ≠ 0
  key_dvd : ∀ entry ∈ t.entries, keySpace ∣ entry.2.toNat
  nodup_key : (t.entries.map (·.2)).Nodup
  exists_keysFor : ∀ u ∈ g.units, ∃ keys, t.keysFor g u.id = .ok keys ∧
    ∀ c, keys.get c ≠ 0 ↔ g.outEdges u.id c ≠ []
  origin_eq : ∀ u ∈ g.units, ∀ v ∈ g.units, ∀ ofU ofV, t.keysFor g u.id = .ok ofU →
    t.keysFor g v.id = .ok ofV → ∀ c d, ofU.get c = ofV.get d → ofU.get c ≠ 0 → u.id = v.id ∧ c = d

theorem origin_eq_of_key_eq (hg : g.Parted) (hnodup : (t.entries.map (·.2)).Nodup) {u v : MeshUnit}
    {c d : Category} (hu : u ∈ g.units) (hv : v ∈ g.units) (hkey : key ≠ 0)
    (hofU : t.sendingKey g u.id c = some key) (hofV : t.sendingKey g v.id d = some key) :
    u.id = v.id ∧ c = d := by
  obtain ⟨a, ha, haorigin, haentry⟩ := exists_partition_of_sendingKey hu hofU hkey
  obtain ⟨b, hb, hborigin, hbentry⟩ := exists_partition_of_sendingKey hv hofV hkey
  have hname : a.name = b.name :=
    (Prod.mk.inj (List.inj_on_of_nodup_map hnodup haentry hbentry rfl)).1
  have hsame : a = b := List.inj_on_of_nodup_map hg.nodup_name ha hb hname
  exact Prod.mk.inj (haorigin.symm.trans (hsame ▸ hborigin))

end RoutingTable

namespace Loopback

variable {s later : Loopback} {g : Graph} {table : RoutingTable}

/-- The keys are multiples of the key space, the first of them by `index + 1`. -/
theorem allocate_eq_ok {keySpace index : Nat} {partitions : List Partition} {keys : List (String × UInt32)}
    (h : allocate keySpace index partitions = .ok keys) :
    keys.map (·.1) = partitions.map (·.name) ∧
      keys.map (·.2.toNat) = (List.range' (index + 1) partitions.length).map (· * keySpace) := by
  induction partitions generalizing index keys with
  | nil =>
    obtain rfl := Except.ok.inj h
    exact ⟨rfl, rfl⟩
  | cons first rest ih =>
    by_cases hkey : maxWord32 < (index + 1) * keySpace
    · simp only [allocate, if_pos hkey] at h
      cases h
    · simp only [allocate, if_neg hkey] at h
      obtain ⟨others, hothers, h⟩ := bind_eq_ok_iff.1 h
      obtain rfl := Except.ok.inj h
      obtain ⟨hnames, hkeys⟩ := ih hothers
      refine ⟨by rw [List.map_cons, List.map_cons, hnames], ?_⟩
      rw [List.map_cons, hkeys, List.length_cons, List.range'_succ, List.map_cons,
        UInt32.toNat_ofNat_of_lt' (Nat.lt_succ_of_le (Nat.le_of_not_lt hkey))]

/-- Keys are multiples of the key space, all different and none of them 0. -/
theorem keys_of_allocate {keySpace : Nat} {partitions : List Partition} {keys : List (String × UInt32)}
    (hspace : 0 < keySpace) (h : allocate keySpace 0 partitions = .ok keys) :
    (∀ entry ∈ keys, entry.2 ≠ 0 ∧ keySpace ∣ entry.2.toNat) ∧ (keys.map (·.2)).Nodup := by
  obtain ⟨_, hwords⟩ := allocate_eq_ok h
  constructor
  · intro entry hentry
    have hmem : entry.2.toNat ∈ keys.map (·.2.toNat) := List.mem_map_of_mem hentry
    rw [hwords, List.mem_map] at hmem
    obtain ⟨i, hi, hword⟩ := hmem
    have hpos : 0 < i := (List.mem_range'_1.1 hi).1
    refine ⟨fun hzero => ?_, hword ▸ Nat.dvd_mul_left _ _⟩
    rw [hzero] at hword
    exact Nat.mul_ne_zero hpos.ne' hspace.ne' hword
  · apply List.Nodup.of_map UInt32.toNat
    rw [List.map_map]
    show (keys.map (·.2.toNat)).Nodup
    rw [hwords]
    refine List.Nodup.map ?_ (List.nodup_range' 1)
    exact fun _ _ => Nat.eq_of_mul_eq_mul_right hspace

theorem place_stopped (h : s.stopped = true) : place g s = .error (.placement (.stopped .place)) s := by
  unfold place checkRunning
  rw [bind_assoc, Step.bind_ok (x := get) rfl, h]
  rfl

/-- A graph is placed by a running service, with a table of the keys allocated to it. -/
theorem place_eq_ok (h : place g s = .ok table later) :
    later = s.placed g table ∧
      ∃ keys, allocate s.keySpace 0 g.partitions = .ok keys ∧ table = .ofList keys := by
  cases hstopped : s.stopped with
  | true => cases (place_stopped hstopped).symm.trans h
  | false =>
    unfold place at h
    rw [Step.bind_ok (checkRunning_ok hstopped .place), Step.bind_ok (x := get) rfl] at h
    cases hkeys : allocate s.keySpace 0 g.partitions with
    | error fault =>
      rw [Step.bind_error (Step.ofResult_error hkeys)] at h
      cases h
    | ok keys =>
      rw [Step.bind_ok (Step.ofResult_ok hkeys)] at h
      cases h
      exact ⟨rfl, keys, rfl, rfl⟩

/-- Keys for different names, 0 not among them, separate the partitions. -/
theorem separates_of_place (hg : g.Parted) (hspace : 0 < s.keySpace) (h : place g s = .ok table later) :
    table.Separates g s.keySpace := by
  obtain ⟨rfl, keys, hkeys, rfl⟩ := place_eq_ok h
  obtain ⟨hnames, _⟩ := allocate_eq_ok hkeys
  obtain ⟨hmultiples, hnodup⟩ := keys_of_allocate hspace hkeys
  have hperm : (RoutingTable.ofList keys).entries.Perm keys :=
    RoutingTable.entries_ofList_perm (hnames ▸ hg.nodup_name)
  have hheld : ((RoutingTable.ofList keys).entries.map (·.2)).Nodup := (hperm.map _).nodup_iff.2 hnodup
  have hzero : ∀ entry ∈ (RoutingTable.ofList keys).entries, entry.2 ≠ 0 :=
    fun entry hentry => (hmultiples entry (hperm.mem_iff.1 hentry)).1
  have hcovers : (RoutingTable.ofList keys).Covers g := fun partition hpartition =>
    RoutingTable.exists_key_ofList (hnames ▸ List.mem_map_of_mem hpartition)
  refine ⟨hnames ▸ hperm.map _, hzero, fun entry hentry => (hmultiples entry (hperm.mem_iff.1 hentry)).2,
    hheld, ?_, ?_⟩
  · intro u hu
    obtain ⟨ofU, hofU⟩ := hcovers.exists_keysFor hu
    exact ⟨ofU, hofU, fun c => RoutingTable.ne_zero_iff_of_sendingKey hzero (RoutingTable.keysFor_eq_ok hofU c)⟩
  · intro u hu v hv ofU ofV hofU hofV c d hkey hne
    exact RoutingTable.origin_eq_of_key_eq hg hheld hu hv hne (RoutingTable.keysFor_eq_ok hofU c)
      (hkey ▸ RoutingTable.keysFor_eq_ok hofV d)

end Loopback

namespace Topology

variable {t : Topology} {limits : Limits} {compiled : CompiledGraph}

/-- Routing keys never collide. A compiled graph's traffic falls into partitions with different
names, one for every unit and category with edges. The loopback places the graph as long as it
runs and has a word for every partition's key, and is left as it was if it does not; the keys
it gives tell apart all that units send. -/
theorem Reachable.routing_spec (ht : t.Reachable) (h : compile t limits = .ok compiled) :
    compiled.graph.Parted ∧ ∀ s : Loopback, 0 < s.keySpace →
      ((∃ table later, Loopback.place compiled.graph s = .ok table later) ↔
        s.stopped = false ∧ compiled.graph.partitions.length * s.keySpace ≤ maxWord32) ∧
      (∀ fault later, Loopback.place compiled.graph s = .error fault later → later = s) ∧
      ∀ table later, Loopback.place compiled.graph s = .ok table later →
        later.routing = some table ∧ table.Separates compiled.graph s.keySpace := by
  obtain ⟨_, hp, hg⟩ := ht.sound.compile_eq_ok h
  have hparted := hg.parted hp
  refine ⟨hparted, fun s hspace => ⟨?_, ?_, fun table later hplace => ?_⟩⟩
  · cases hstopped : s.stopped with
    | true => simp [Loopback.place_stopped hstopped]
    | false =>
      obtain ⟨hfits, table, _, hplace⟩ | ⟨hexceeds, name, hplace⟩ :=
        Loopback.place_cases hstopped compiled.graph
      · exact iff_of_true ⟨table, _, hplace⟩ ⟨rfl, hfits⟩
      · simp [hplace, Nat.not_le.2 hexceeds]
  · intro fault later hplace
    cases hstopped : s.stopped with
    | true =>
      cases (Loopback.place_stopped hstopped).symm.trans hplace
      rfl
    | false =>
      obtain ⟨_, table, _, hok⟩ | ⟨_, name, hrefused⟩ := Loopback.place_cases hstopped compiled.graph
      · cases hok.symm.trans hplace
      · cases hrefused.symm.trans hplace
        rfl
  · obtain ⟨rfl, _⟩ := Loopback.place_eq_ok hplace
    exact ⟨rfl, Loopback.separates_of_place hparted hspace hplace⟩

/-- An output group's units send under keys of their own, 16 apart. -/
theorem routing_spec_output : ∃ t grown id compiled table later, make 2 = .ok t ∧
    t.addGroup 3 (Roles.ofList [.output]) none none none = .ok (id, grown) ∧
    compile grown {} = .ok compiled ∧
    Loopback.place compiled.graph { keySpace := 16 } = .ok table later ∧
    table.Separates compiled.graph 16 := by
  obtain ⟨t, grown, id, p, hmake, hadd, hplan, hunits⟩ : ∃ t grown id p, make 2 = .ok t ∧
      t.addGroup 3 (Roles.ofList [.output]) none none none = .ok (id, grown) ∧
      Plan.make grown {} = .ok p ∧ p.units.length ≤ 20 := ⟨_, _, _, _, rfl, rfl, rfl, by decide⟩
  have ht : Reachable grown := .addGroup (.make hmake) hadd
  obtain ⟨g, hcompile, hg⟩ := ht.sound.compile_eq hplan
  have hfits : g.partitions.length * 16 ≤ maxWord32 := by
    have hsize : g.units.size ≤ 20 := by rwa [← Array.length_toList, hg.units_eq]
    have hcount := g.length_partitions_le
    have hword : 20 * 5 * 16 ≤ maxWord32 := by decide
    omega
  obtain ⟨_, hplaces⟩ := Reachable.routing_spec ht hcompile
  obtain ⟨hiff, _, hseparates⟩ := hplaces { keySpace := 16 } (by decide)
  obtain ⟨table, later, hplace⟩ := hiff.2 ⟨rfl, hfits⟩
  exact ⟨t, grown, id, _, table, later, hmake, hadd, hcompile, hplace, (hseparates table later hplace).2⟩

end Topology

end PerceptronMesh

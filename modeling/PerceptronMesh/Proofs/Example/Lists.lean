import PerceptronMesh.Proofs.Example.Binding

/-!
What the lists of one event give to the groups of a side. Every group takes the one list that is
bound to it, or the default if there is none, and binding fails only for lists that cannot all be
taken.
-/

namespace PerceptronMesh

namespace ValueList

/-- The group of a side that a list is for. A list without a name is for the only one; of groups
with one label the first counts. -/
inductive BoundTo (groups : List Group) (list : ValueList) : Group → Prop
  | only {g : Group} (hnone : list.group = none) (hgroups : groups = [g]) : BoundTo groups list g
  | named {g : Group} {name : String} (hname : list.group = some name)
      (hfound : groups.find? (·.label == name) = some g) : BoundTo groups list g

/-- Whether the values are right for a group of so many units. -/
def Fits (list : ValueList) (units : Nat) : Prop :=
  match list.values with
  | .dense values => values.length = units
  | .sparse listed _ => ∀ unit ∈ listed, unit < units

/-- The values of all units, for a list that fits. -/
def row (list : ValueList) (units : Nat) (default : UnitValue) : List UnitValue :=
  match list.values with
  | .dense values => values
  | .sparse listed value => (List.range units).map fun unit => if unit ∈ listed then some value else default

variable {groups : List Group} {list : ValueList} {g other : Group} {default : UnitValue}

theorem target_eq_ok_iff (side : Side) : Binding.target side groups list = .ok g ↔ list.BoundTo groups g := by
  constructor
  · intro h
    unfold Binding.target at h
    split at h
    · rename_i hnone
      split at h
      · cases h
        exact .only hnone rfl
      · cases h
    · rename_i hname
      split at h
      · rename_i hfound
        cases h
        exact .named hname hfound
      · cases h
  · intro h
    unfold Binding.target
    cases h with
    | only hnone hgroups => rw [hnone, hgroups]
    | named hname hfound => simp only [hname, hfound]

theorem BoundTo.mem (h : list.BoundTo groups g) : g ∈ groups :=
  Binding.mem_of_target ((target_eq_ok_iff .input).2 h)

theorem BoundTo.unique (h : list.BoundTo groups g) (hother : list.BoundTo groups other) : g = other :=
  Except.ok.inj (((target_eq_ok_iff .input).2 h).symm.trans ((target_eq_ok_iff .input).2 hother))

theorem getElem?_foldl_set {α : Type} (indices : List Nat) (value : α) (row : List α) (i : Nat) :
    (indices.foldl (fun row index => row.set index value) row)[i]? =
      row[i]?.map fun old => if i ∈ indices then value else old := by
  induction indices generalizing row with
  | nil => simp
  | cons index rest ih =>
    rw [List.foldl_cons, ih, List.getElem?_set]
    by_cases hindex : index = i
    · subst hindex
      by_cases hlt : index < row.length
      · simp [hlt]
      · rw [List.getElem?_eq_none (Nat.not_lt.1 hlt)]
        simp [hlt]
    · have hne : i ≠ index := Ne.symm hindex
      simp [hindex, hne]

theorem expand_eq_ok_iff {units : List UnitValue} :
    list.expand g default = .ok units ↔ list.Fits g.units ∧ units = list.row g.units default := by
  unfold expand Fits row
  cases list.values with
  | dense values =>
    dsimp only
    by_cases hlength : values.length = g.units
    · simp [hlength, eq_comm]
    · simp [hlength]
  | sparse listed value =>
    dsimp only
    cases hfind : listed.find? fun unit => g.units ≤ unit with
    | some unit =>
      have hout := List.find?_some hfind
      have hmem := List.mem_of_find?_eq_some hfind
      simp only [reduceCtorEq, false_iff, not_and]
      intro hfits
      have hlt := hfits unit hmem
      simp only [decide_eq_true_eq] at hout
      omega
    | none =>
      have hfits : ∀ unit ∈ listed, unit < g.units := by simpa using hfind
      have hrow : listed.foldl (fun row unit => row.set unit (some value)) (List.replicate g.units default) =
          (List.range g.units).map fun unit => if unit ∈ listed then some value else default := by
        apply List.ext_getElem?
        intro i
        rw [getElem?_foldl_set, List.getElem?_map]
        by_cases hi : i < g.units
        · simp [hi]
        · simp [hi]
      simp only [hrow, Except.ok.injEq]
      exact ⟨fun h => ⟨hfits, h.symm⟩, fun h => h.2.symm⟩

theorem Fits.length_row {units : Nat} (h : list.Fits units) : (list.row units default).length = units := by
  unfold Fits at h
  unfold row
  cases hvalues : list.values with
  | dense values =>
    rw [hvalues] at h
    exact h
  | sparse listed value => simp

end ValueList

namespace Binding

variable {side : Side} {groups : List Group} {default : UnitValue} {lists : List ValueList} {g : Group}

/-- Why the lists of an event cannot all be bound. -/
inductive Fault (groups : List Group) (lists : List ValueList) : Prop
  | unnamed {list : ValueList} (hmem : list ∈ lists) (hnone : list.group = none) (hcount : groups.length ≠ 1)
  | noGroup {list : ValueList} {name : String} (hmem : list ∈ lists) (hname : list.group = some name)
      (habsent : ∀ g ∈ groups, g.label ≠ name)
  | twice {i j : Nat} {list other : ValueList} {g : Group} (hlt : i < j) (hlist : lists[i]? = some list)
      (hother : lists[j]? = some other) (hbound : list.BoundTo groups g) (hagain : other.BoundTo groups g)
  | wrongLength {list : ValueList} {values : List UnitValue} {g : Group} (hmem : list ∈ lists)
      (hbound : list.BoundTo groups g) (hdense : list.values = .dense values) (hlength : values.length ≠ g.units)
  | outOfRange {list : ValueList} {listed : List Nat} {value : Numeric.Binary64} {unit : Nat} {g : Group}
      (hmem : list ∈ lists) (hbound : list.BoundTo groups g) (hsparse : list.values = .sparse listed value)
      (hunit : unit ∈ listed) (hout : g.units ≤ unit)

/-- What a group takes from the lists of an event. -/
inductive Gives (groups : List Group) (lists : List ValueList) (default : UnitValue) (g : Group) :
    List UnitValue → Prop
  | listed {before after : List ValueList} {list : ValueList} (hlists : lists = before ++ list :: after)
      (hbound : list.BoundTo groups g) (hothers : ∀ other ∈ before ++ after, ¬ other.BoundTo groups g)
      (hfits : list.Fits g.units) : Gives groups lists default g (list.row g.units default)
  | unlisted (hnone : ∀ list ∈ lists, ¬ list.BoundTo groups g) :
      Gives groups lists default g (List.replicate g.units default)

theorem Gives.length_eq {row : List UnitValue} (h : Gives groups lists default g row) : row.length = g.units := by
  cases h with
  | listed _ _ _ hfits => exact hfits.length_row
  | unlisted => exact List.length_replicate

/-- A list with the row that it binds. -/
def Binds (groups : List Group) (default : UnitValue) (list : ValueList) (entry : GroupId × List UnitValue) : Prop :=
  ∃ g, list.BoundTo groups g ∧ list.Fits g.units ∧ entry = (g.id, list.row g.units default)

theorem Binds.id_eq {list : ValueList} {entry : GroupId × List UnitValue} (h : Binds groups default list entry)
    (hbound : list.BoundTo groups g) : entry.1 = g.id := by
  obtain ⟨own, hown, _, rfl⟩ := h
  exact congrArg Group.id (hown.unique hbound)

theorem Binds.fits {list : ValueList} {entry : GroupId × List UnitValue} (h : Binds groups default list entry)
    (hbound : list.BoundTo groups g) : list.Fits g.units := by
  obtain ⟨own, hown, hfits, _⟩ := h
  rwa [hown.unique hbound] at hfits

theorem bindList_eq_ok_iff {rows later : Rows} {list : ValueList} :
    bindList side groups default rows list = .ok later ↔
      ∃ entry, Binds groups default list entry ∧ rows.lookup entry.1 = none ∧ later = rows ++ [entry] := by
  unfold bindList
  rw [bind_eq_ok_iff]
  constructor
  · rintro ⟨g, hg, h⟩
    by_cases htwice : (rows.lookup g.id).isSome
    · rw [if_pos htwice] at h
      cases h
    rw [if_neg htwice] at h
    obtain ⟨row, hrow, h⟩ := bind_eq_ok_iff.1 h
    cases h
    obtain ⟨hfits, rfl⟩ := ValueList.expand_eq_ok_iff.1 hrow
    exact ⟨_, ⟨g, (ValueList.target_eq_ok_iff side).1 hg, hfits, rfl⟩, Option.not_isSome_iff_eq_none.1 htwice, rfl⟩
  · rintro ⟨_, ⟨g, hbound, hfits, rfl⟩, hnone, rfl⟩
    refine ⟨g, (ValueList.target_eq_ok_iff side).2 hbound, ?_⟩
    rw [if_neg (Option.not_isSome_iff_eq_none.2 hnone)]
    exact bind_eq_ok_iff.2 ⟨_, ValueList.expand_eq_ok_iff.2 ⟨hfits, rfl⟩, rfl⟩

/-- Lists bind one after another if each binds a row of its own to a group that has none. -/
theorem foldlM_bindList_eq_ok_iff {rows later : Rows} :
    lists.foldlM (bindList side groups default) rows = .ok later ↔
      ∃ new, later = rows ++ new ∧ List.Forall₂ (Binds groups default) lists new ∧
        new.Pairwise (fun entry other => entry.1 ≠ other.1) ∧ ∀ entry ∈ new, rows.lookup entry.1 = none := by
  induction lists generalizing rows with
  | nil =>
    constructor
    · intro h
      cases h
      exact ⟨[], by simp⟩
    · rintro ⟨_, rfl, hnil, _⟩
      cases hnil
      rw [List.append_nil]
      rfl
  | cons list rest ih =>
    rw [List.foldlM_cons, bind_eq_ok_iff]
    constructor
    · rintro ⟨_, hnext, hrest⟩
      obtain ⟨entry, hbinds, hnone, rfl⟩ := bindList_eq_ok_iff.1 hnext
      obtain ⟨new, rfl, hnew, hdistinct, hfree⟩ := ih.1 hrest
      refine ⟨entry :: new, by simp, .cons hbinds hnew, .cons ?_ hdistinct, ?_⟩
      · intro other hother heq
        have hlookup := hfree other hother
        rw [List.lookup_append, ← heq, List.lookup_cons_self] at hlookup
        simp at hlookup
      · refine List.forall_mem_cons.2 ⟨hnone, fun other hother => ?_⟩
        have hlookup := hfree other hother
        rw [List.lookup_append, Option.or_eq_none_iff] at hlookup
        exact hlookup.1
    · rintro ⟨_, rfl, hall, hdistinct, hfree⟩
      cases hall with
      | @cons _ entry _ new hbinds hnew =>
        obtain ⟨hnone, hfree⟩ := List.forall_mem_cons.1 hfree
        obtain ⟨hne, hdistinct⟩ := List.pairwise_cons.1 hdistinct
        refine ⟨_, bindList_eq_ok_iff.2 ⟨entry, hbinds, hnone, rfl⟩, ih.2 ⟨new, by simp, hnew, hdistinct, ?_⟩⟩
        intro other hother
        have hother_ne : (other.1 == entry.1) = false := beq_false_of_ne (hne other hother).symm
        rw [List.lookup_append, hfree other hother, List.lookup_cons, hother_ne]
        rfl

/-- The rows of one event. -/
theorem bindEvent_eq_ok_iff {rows : List (List UnitValue)} :
    bindEvent side groups default lists = .ok rows ↔
      ∃ new, List.Forall₂ (Binds groups default) lists new ∧
        new.Pairwise (fun entry other => entry.1 ≠ other.1) ∧
        rows = groups.map fun g => (new.lookup g.id).getD (List.replicate g.units default) := by
  unfold bindEvent
  rw [bind_eq_ok_iff]
  constructor
  · rintro ⟨_, hbound, h⟩
    obtain ⟨_, rfl, hnew, hdistinct, _⟩ := foldlM_bindList_eq_ok_iff.1 hbound
    cases h
    exact ⟨_, hnew, hdistinct, rfl⟩
  · rintro ⟨new, hnew, hdistinct, rfl⟩
    exact ⟨new, foldlM_bindList_eq_ok_iff.2 ⟨new, rfl, hnew, hdistinct, fun _ _ => rfl⟩, rfl⟩

theorem exists_of_forall₂ {α β : Type} {R : α → β → Prop} {xs : List α} {ys : List β} (h : List.Forall₂ R xs ys)
    {x : α} (hx : x ∈ xs) : ∃ y ∈ ys, R x y := by
  induction h with
  | nil => cases hx
  | @cons first y _ _ hfirst _ ih =>
    rcases List.mem_cons.1 hx with rfl | hmem
    · exact ⟨y, List.mem_cons_self, hfirst⟩
    · obtain ⟨other, hother, hrel⟩ := ih hmem
      exact ⟨other, List.mem_cons_of_mem _ hother, hrel⟩

section Distinct

variable (hids : ∀ a ∈ groups, ∀ b ∈ groups, a.id = b.id → a = b)
include hids

/-- A group takes the row of the list that is bound to it. -/
theorem gives_lookup (hg : g ∈ groups) {rows : Rows} (hrows : List.Forall₂ (Binds groups default) lists rows)
    (hdistinct : rows.Pairwise fun entry other => entry.1 ≠ other.1) :
    Gives groups lists default g ((rows.lookup g.id).getD (List.replicate g.units default)) := by
  induction hrows with
  | nil => exact .unlisted (by simp)
  | @cons list entry rest rows hbinds hrest ih =>
    obtain ⟨found, hbound, hfits, rfl⟩ := hbinds
    obtain ⟨hne, hdistinct⟩ := List.pairwise_cons.1 hdistinct
    by_cases hid : g.id = found.id
    · obtain rfl := hids g hg found hbound.mem hid
      rw [List.lookup_cons_self, Option.getD_some]
      refine .listed (show list :: rest = [] ++ list :: rest from rfl) hbound (fun other hother hagain => ?_) hfits
      obtain ⟨entry, hentry, htaken⟩ := exists_of_forall₂ hrest hother
      exact hne entry hentry (htaken.id_eq hagain).symm
    · have hfound : ¬ list.BoundTo groups g := fun h => hid (congrArg Group.id (h.unique hbound))
      rw [List.lookup_cons, beq_false_of_ne hid]
      have hgives := ih hdistinct
      dsimp only
      generalize (rows.lookup g.id).getD (List.replicate g.units default) = row at hgives ⊢
      cases hgives with
      | @listed before after own hlists hown hothers hownfits =>
        have happend : list :: rest = (list :: before) ++ own :: after := by rw [hlists, List.cons_append]
        exact .listed happend hown (List.forall_mem_cons.2 ⟨hfound, hothers⟩) hownfits
      | unlisted hnone => exact .unlisted (List.forall_mem_cons.2 ⟨hfound, hnone⟩)

/-- Lists that give no cause all bind. -/
theorem exists_binds (h : ¬ Fault groups lists) (default : UnitValue) :
    ∃ rows, List.Forall₂ (Binds groups default) lists rows ∧
      rows.Pairwise fun entry other => entry.1 ≠ other.1 := by
  have hbinds : ∀ list ∈ lists, ∃ entry, Binds groups default list entry := by
    intro list hlist
    obtain ⟨g, hbound⟩ : ∃ g, list.BoundTo groups g := by
      cases hname : list.group with
      | none =>
        obtain ⟨g, hg⟩ := List.length_eq_one_iff.1 (by_contra fun hcount => h (.unnamed hlist hname hcount))
        exact ⟨g, .only hname hg⟩
      | some name =>
        cases hfind : groups.find? (·.label == name) with
        | none => exact absurd (.noGroup hlist hname (by simpa using hfind)) h
        | some g => exact ⟨g, .named hname hfind⟩
    refine ⟨_, g, hbound, ?_, rfl⟩
    unfold ValueList.Fits
    cases hvalues : list.values with
    | dense values => exact by_contra fun hlength => h (.wrongLength hlist hbound hvalues hlength)
    | sparse listed value =>
      exact fun unit hunit => by_contra fun hout => h (.outOfRange hlist hbound hvalues hunit (Nat.not_lt.1 hout))
  have hapart : lists.Pairwise fun list other => ∀ g, list.BoundTo groups g → ¬ other.BoundTo groups g := by
    rw [List.pairwise_iff_getElem]
    intro i j hi hj hlt g hbound hagain
    exact h (.twice hlt (List.getElem?_eq_getElem hi) (List.getElem?_eq_getElem hj) hbound hagain)
  clear h
  induction lists with
  | nil => exact ⟨[], .nil, .nil⟩
  | cons list rest ih =>
    obtain ⟨hfirst, hothers⟩ := List.forall_mem_cons.1 hbinds
    obtain ⟨hfar, hapart⟩ := List.pairwise_cons.1 hapart
    obtain ⟨_, g, hbound, hfits, rfl⟩ := hfirst
    obtain ⟨rows, hrows, hdistinct⟩ := ih hothers hapart
    refine ⟨_ :: rows, .cons ⟨g, hbound, hfits, rfl⟩ hrows, .cons ?_ hdistinct⟩
    intro entry hentry hid
    obtain ⟨other, hother, again, hagain, _, rfl⟩ := exists_of_forall₂ hrows.flip hentry
    obtain rfl := hids g hbound.mem again hagain.mem hid
    exact hfar other hother g hbound hagain

/-- Binding an event fails for the causes above and no other. -/
theorem bindEvent_eq_error_iff : (∃ e, bindEvent side groups default lists = .error e) ↔ Fault groups lists := by
  constructor
  · rintro ⟨e, he⟩
    by_contra hfault
    obtain ⟨rows, hrows, hdistinct⟩ := exists_binds hids hfault default
    cases he.symm.trans (bindEvent_eq_ok_iff.2 ⟨rows, hrows, hdistinct, rfl⟩)
  · intro hfault
    cases hbind : bindEvent side groups default lists with
    | error e => exact ⟨e, rfl⟩
    | ok rows =>
      exfalso
      obtain ⟨rows, hrows, hdistinct, _⟩ := bindEvent_eq_ok_iff.1 hbind
      cases hfault with
      | unnamed hmem hnone hcount =>
        obtain ⟨_, _, g, hbound, _⟩ := exists_of_forall₂ hrows hmem
        cases hbound with
        | only _ hgroups => exact hcount (by rw [hgroups, List.length_singleton])
        | named hname => cases hname.symm.trans hnone
      | noGroup hmem hname habsent =>
        obtain ⟨_, _, g, hbound, _⟩ := exists_of_forall₂ hrows hmem
        cases hbound with
        | only hnone => cases hname.symm.trans hnone
        | named hown hfound =>
          cases hown.symm.trans hname
          exact habsent g (List.mem_of_find?_eq_some hfound) (by simpa using List.find?_some hfound)
      | @twice i j list other g hlt hlist hother hbound hagain =>
        obtain ⟨hi, rfl⟩ := List.getElem?_eq_some_iff.1 hlist
        obtain ⟨hj, rfl⟩ := List.getElem?_eq_some_iff.1 hother
        obtain ⟨hlength, hat⟩ := List.forall₂_iff_get.1 hrows
        have hfirst := (hat i hi (hlength ▸ hi)).id_eq hbound
        have hsecond := (hat j hj (hlength ▸ hj)).id_eq hagain
        exact List.pairwise_iff_getElem.1 hdistinct i j _ _ hlt (hfirst.trans hsecond.symm)
      | wrongLength hmem hbound hdense hlength =>
        obtain ⟨_, _, hbinds⟩ := exists_of_forall₂ hrows hmem
        have hfits := hbinds.fits hbound
        rw [ValueList.Fits, hdense] at hfits
        exact hlength hfits
      | outOfRange hmem hbound hsparse hunit hout =>
        obtain ⟨_, _, hbinds⟩ := exists_of_forall₂ hrows hmem
        have hfits := hbinds.fits hbound
        rw [ValueList.Fits, hsparse] at hfits
        exact absurd (hfits _ hunit) (Nat.not_lt.2 hout)

/-- An event that binds gives every group its row. -/
theorem forall₂_gives {rows : List (List UnitValue)} (h : bindEvent side groups default lists = .ok rows) :
    List.Forall₂ (fun g row => Gives groups lists default g row) groups rows := by
  obtain ⟨new, hnew, hdistinct, rfl⟩ := bindEvent_eq_ok_iff.1 h
  rw [List.forall₂_map_right_iff, List.forall₂_same]
  exact fun g hg => gives_lookup hids hg hnew hdistinct

end Distinct

end Binding

end PerceptronMesh

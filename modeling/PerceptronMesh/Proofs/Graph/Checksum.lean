import Mathlib.Data.List.Sort
import Mathlib.Data.Prod.Lex
import Mathlib.Data.String.Basic
import PerceptronMesh.Graph.Checksum
import PerceptronMesh.Proofs.Graph.Assembled
import PerceptronMesh.Proofs.Wire.Reader

/-!
What a checksum sees. The bytes that are hashed hold a graph's units and edges in an order that they
alone decide, and without lengths or separators the bytes can be read in one way only: the byte that
ends a text occurs in none. So two graphs give the same bytes exactly if they have the same units and
the same edges.
-/

namespace PerceptronMesh

open Wire

section Texts

theorem toList_loop_eq_reverse_append (bs : ByteArray) (i : Nat) (read : List UInt8) :
    ByteArray.toList.loop bs i read = read.reverse ++ bs.data.toList.drop i := by
  fun_induction ByteArray.toList.loop bs i read with
  | case1 i read hlt ih =>
    have hbyte : bs.get! i = bs.data.toList[i] := getElem!_pos bs.data i hlt
    rw [ih, hbyte, List.reverse_cons, List.append_assoc, List.singleton_append, List.getElem_cons_drop]
  | case2 i read hge =>
    rw [List.drop_of_length_le (Nat.not_lt.1 hge), List.append_nil]

theorem toList_toUTF8 (s : String) : s.toUTF8.toList = s.toList.flatMap String.utf8EncodeChar := by
  have hbytes : s.toUTF8 = (s.toList.flatMap String.utf8EncodeChar).toByteArray :=
    String.utf8Encode_toList.symm
  rw [ByteArray.toList, toList_loop_eq_reverse_append, hbytes, List.data_toByteArray]
  rfl

theorem toList_toUTF8_injective {s t : String} (h : s.toUTF8.toList = t.toUTF8.toList) : s = t := by
  have hbytes (s : String) : s.toUTF8 = s.toUTF8.toList.toByteArray := by
    rw [toList_toUTF8]
    exact String.utf8Encode_toList.symm
  apply String.toByteArray_inj.1
  exact (hbytes s).trans ((congrArg _ h).trans (hbytes t).symm)

/-- Some bit of every byte of a character is clear. -/
theorem end_notMem_utf8EncodeChar (c : Char) : 0xff ∉ String.utf8EncodeChar c := by
  have hbyte {n : Nat} (h : n < 255) : (0xff : UInt8) ≠ UInt8.ofNat n := by
    intro hsame
    have hnat : 255 = (UInt8.ofNat n).toNat := congrArg UInt8.toNat hsame
    rw [UInt8.toNat_ofNat', Nat.mod_eq_of_lt (Nat.lt_trans h (by decide))] at hnat
    exact Nat.ne_of_lt h hnat.symm
  fun_cases String.utf8EncodeChar c <;> simp only [List.mem_cons, List.not_mem_nil, or_false, not_or]
  case case1 => exact hbyte (by omega)
  case case2 => exact ⟨hbyte (by omega), hbyte (by omega)⟩
  case case3 => exact ⟨hbyte (by omega), hbyte (by omega), hbyte (by omega)⟩
  case case4 => exact ⟨hbyte (by omega), hbyte (by omega), hbyte (by omega), hbyte (by omega)⟩

theorem end_notMem_toUTF8 (s : String) : 0xff ∉ s.toUTF8.toList := by
  rw [toList_toUTF8, List.mem_flatMap]
  rintro ⟨c, -, hc⟩
  exact end_notMem_utf8EncodeChar c hc

/-- Bytes before the first occurrence of another are told apart from what follows. -/
theorem append_last_inj {last : UInt8} {xs ys r s : List UInt8} (hxs : last ∉ xs) (hys : last ∉ ys)
    (h : xs ++ last :: r = ys ++ last :: s) : xs = ys ∧ r = s := by
  have htake {front : List UInt8} (hfront : last ∉ front) (tail : List UInt8) :
      (front ++ last :: tail).takeWhile (· != last) = front := by
    rw [List.takeWhile_append_of_pos (fun b hb => bne_iff_ne.2 (ne_of_mem_of_not_mem hb hfront)),
      List.takeWhile_cons_of_neg (by simp), List.append_nil]
  have hsame : xs = ys := by rw [← htake hxs r, h, htake hys]
  rw [hsame] at h
  exact ⟨hsame, (List.cons.inj (List.append_cancel_left h)).2⟩

/-- A text in front of other bytes is known from them all. -/
theorem textBytes_append_inj {s t : String} {r r' : List UInt8}
    (h : textBytes s ++ r = textBytes t ++ r') : s = t ∧ r = r' := by
  simp only [textBytes, List.append_assoc, List.singleton_append] at h
  obtain ⟨htext, hrest⟩ := append_last_inj (end_notMem_toUTF8 s) (end_notMem_toUTF8 t) h
  exact ⟨toList_toUTF8_injective htext, hrest⟩

end Texts

/-- What a checksum sees of a unit. -/
def MeshUnit.entry (u : MeshUnit) : UnitId × UnitRole × Nat := (u.id, u.role, u.units)

/-- An edge between identifiers made from positions. -/
structure Edge.Made (e : Edge) : Prop where
  source : e.source.Placed
  target : e.target.Placed

section Letters

variable {r s : List UInt8}

theorem littleEndian_append_inj {width m n : Nat} (hm : m < Nat.pow 256 width) (hn : n < Nat.pow 256 width)
    (h : littleEndian width m ++ r = littleEndian width n ++ s) : m = n ∧ r = s := by
  obtain ⟨hword, hrest⟩ := List.append_inj h (by rw [length_littleEndian, length_littleEndian])
  refine ⟨?_, hrest⟩
  rw [← ofLittleEndian_word width hm, hword, ofLittleEndian_word width hn]

theorem UnitRole.rank_lt (role : UnitRole) : role.rank < 4 := by
  cases role <;> decide

theorem UnitRole.rank_injective {a b : UnitRole} (h : a.rank = b.rank) : a = b := by
  cases a <;> cases b <;> first | rfl | cases h

theorem Category.rank_lt (c : Category) : c.rank < 5 := by
  cases c <;> decide

theorem Category.rank_injective {a b : Category} (h : a.rank = b.rank) : a = b := by
  cases a <;> cases b <;> first | rfl | cases h

/-- The letter that opens an identifier is no rank of a role. -/
theorem UnitId.exists_letter {id : UnitId} (h : id.Placed) :
    ∃ letter rest, textBytes id.text = letter :: rest ∧ 4 ≤ letter.toNat := by
  unfold textBytes
  rw [toList_toUTF8]
  cases id with
  | weight =>
    rw [toList_text_weight]
    exact ⟨119, _, rfl, by decide⟩
  | sum =>
    rw [toList_text_sum]
    exact ⟨115, _, rfl, by decide⟩
  | input =>
    rw [toList_text_input]
    exact ⟨105, _, rfl, by decide⟩
  | threshold =>
    rw [toList_text_threshold]
    exact ⟨116, _, rfl, by decide⟩
  | foreign => exact h.elim

end Letters

namespace Graph

section Stream

variable {u v : MeshUnit} {e f : Edge} {r s : List UInt8}

theorem unitBytes_append_inj (hu : u.Made) (hv : v.Made) (h : unitBytes u ++ r = unitBytes v ++ s) :
    u.entry = v.entry ∧ r = s := by
  simp only [unitBytes, List.append_assoc] at h
  obtain ⟨htext, h⟩ := textBytes_append_inj h
  obtain ⟨hrank, h⟩ := littleEndian_append_inj (Nat.lt_trans u.role.rank_lt (by decide))
    (Nat.lt_trans v.role.rank_lt (by decide)) h
  obtain ⟨hunits, hrest⟩ := littleEndian_append_inj hu.units_lt hv.units_lt h
  have hid := UnitId.text_injective hu.placed hv.placed htext
  refine ⟨?_, hrest⟩
  rw [MeshUnit.entry, MeshUnit.entry, hid, UnitRole.rank_injective hrank, hunits]

theorem edgeBytes_append_inj (he : e.Made) (hf : f.Made) (h : edgeBytes e ++ r = edgeBytes f ++ s) :
    e = f ∧ r = s := by
  simp only [edgeBytes, List.append_assoc] at h
  obtain ⟨hsource, h⟩ := textBytes_append_inj h
  obtain ⟨htarget, h⟩ := textBytes_append_inj h
  obtain ⟨hrank, h⟩ := littleEndian_append_inj (Nat.lt_trans e.category.rank_lt (by decide))
    (Nat.lt_trans f.category.rank_lt (by decide)) h
  obtain ⟨hpartition, h⟩ := textBytes_append_inj h
  obtain ⟨hpackets, hrest⟩ := littleEndian_append_inj e.packets.toNat_lt f.packets.toNat_lt h
  refine ⟨?_, hrest⟩
  obtain ⟨source, target, category, partition, packets⟩ := e
  obtain ⟨source', target', category', partition', packets'⟩ := f
  obtain rfl := UnitId.text_injective he.source hf.source hsource
  obtain rfl := UnitId.text_injective he.target hf.target htarget
  obtain rfl := Category.rank_injective hrank
  obtain rfl : partition = partition' := hpartition
  obtain rfl := UInt32.toNat_inj.1 hpackets
  rfl

/-- After its first identifier a unit goes on with a rank, an edge with a letter. -/
theorem unitBytes_append_ne (hf : f.Made) : unitBytes u ++ r ≠ edgeBytes f ++ s := by
  intro h
  simp only [unitBytes, edgeBytes, List.append_assoc] at h
  obtain ⟨-, h⟩ := textBytes_append_inj h
  obtain ⟨letter, rest, htext, hletter⟩ := UnitId.exists_letter hf.target
  rw [htext, littleEndian] at h
  have hrank : UInt8.ofNat u.role.rank = letter := (List.cons.inj h).1
  have hlt := u.role.rank_lt
  rw [← hrank, UInt8.toNat_ofNat'] at hletter
  omega

theorem edges_eq_of_bytes {es fs : List Edge} (hes : ∀ e ∈ es, e.Made) (hfs : ∀ f ∈ fs, f.Made)
    (h : es.flatMap edgeBytes = fs.flatMap edgeBytes) : es = fs := by
  have hne (e : Edge) (s : List UInt8) : edgeBytes e ++ s ≠ [] := by
    simp [edgeBytes, textBytes]
  induction es generalizing fs with
  | nil =>
    cases fs with
    | nil => rfl
    | cons f fs => exact absurd h.symm (hne _ _)
  | cons e es ih =>
    cases fs with
    | nil => exact absurd h (hne _ _)
    | cons f fs =>
      rw [List.forall_mem_cons] at hes hfs
      obtain ⟨hfirst, hrest⟩ := edgeBytes_append_inj hes.1 hfs.1 h
      rw [hfirst, ih hes.2 hfs.2 hrest]

/-- Units followed by edges are told apart by their bytes. -/
theorem parts_eq_of_bytes {us vs : List MeshUnit} {es fs : List Edge} (hus : ∀ u ∈ us, u.Made)
    (hvs : ∀ v ∈ vs, v.Made) (hes : ∀ e ∈ es, e.Made) (hfs : ∀ f ∈ fs, f.Made)
    (h : us.flatMap unitBytes ++ es.flatMap edgeBytes = vs.flatMap unitBytes ++ fs.flatMap edgeBytes) :
    us.map MeshUnit.entry = vs.map MeshUnit.entry ∧ es = fs := by
  -- Where one side has run out of units, the other cannot have one left.
  have hdone {us : List MeshUnit} {es fs : List Edge} (hfs : ∀ f ∈ fs, f.Made)
      (h : us.flatMap unitBytes ++ es.flatMap edgeBytes = fs.flatMap edgeBytes) : us = [] := by
    cases us with
    | nil => rfl
    | cons u us =>
      rw [List.flatMap_cons, List.append_assoc] at h
      cases fs with
      | nil => exact absurd h (by simp [unitBytes, textBytes])
      | cons f fs => exact absurd h (unitBytes_append_ne (hfs f List.mem_cons_self))
  induction us generalizing vs with
  | nil =>
    obtain rfl := hdone hes h.symm
    exact ⟨rfl, edges_eq_of_bytes hes hfs h⟩
  | cons u us ih =>
    cases vs with
    | nil => cases hdone hfs h
    | cons v vs =>
      rw [List.forall_mem_cons] at hus hvs
      rw [List.flatMap_cons, List.flatMap_cons, List.append_assoc, List.append_assoc] at h
      obtain ⟨hfirst, hrest⟩ := unitBytes_append_inj hus.1 hvs.1 h
      obtain ⟨hunits, hedges⟩ := ih hus.2 hvs.2 hrest
      exact ⟨by rw [List.map_cons, List.map_cons, hfirst, hunits], hedges⟩

end Stream

section Order

variable {α β κ : Type} [LinearOrder κ] (tag : α → β) {untag : β → α} {before : β → β → Bool} {key : β → κ}

theorem perm_sorted (htag : ∀ a, untag (tag a) = a) (items : List α) :
    (((items.map tag).mergeSort before).map untag).Perm items := by
  have hperm := (List.mergeSort_perm (items.map tag) before).map untag
  rwa [List.map_map, (funext htag : untag ∘ tag = id), List.map_id] at hperm

theorem pairwise_sorted (htag : ∀ a, untag (tag a) = a) (hbefore : ∀ x y, before x y ↔ key x ≤ key y)
    (items : List α) : (((items.map tag).mergeSort before).map untag).Pairwise fun a b =>
      key (tag a) ≤ key (tag b) := by
  have hsorted : ((items.map tag).mergeSort before).Pairwise fun x y => before x y := by
    apply List.pairwise_mergeSort
    · intro x y z hxy hyz
      exact (hbefore x z).2 (((hbefore x y).1 hxy).trans ((hbefore y z).1 hyz))
    · intro x y
      rw [Bool.or_eq_true, hbefore, hbefore]
      exact le_total _ _
  have htagged {x : β} (hx : x ∈ (items.map tag).mergeSort before) : tag (untag x) = x := by
    obtain ⟨a, -, rfl⟩ := List.mem_map.1 (List.mem_mergeSort.1 hx)
    rw [htag]
  rw [List.pairwise_map]
  refine hsorted.imp_of_mem fun hx hy hxy => ?_
  rw [htagged hx, htagged hy]
  exact (hbefore _ _).1 hxy

/-- A unit under what it is put in order by. -/
def placedUnit (u : MeshUnit) : String × MeshUnit := (u.id.text, u)

/-- An edge under what it is put in order by, but for its category. -/
def placedEdge (e : Edge) : String × String × Edge := (e.source.text, e.target.text, e)

/-- By what edges are put in order: source, then target, then category. -/
def place (x : String × String × Edge) : String ×ₗ String ×ₗ Nat :=
  toLex (x.1, toLex (x.2.1, x.2.2.category.rank))

theorem edgeBefore_iff (x y : String × String × Edge) : edgeBefore x y ↔ place x ≤ place y := by
  unfold edgeBefore place
  rw [Prod.Lex.toLex_le_toLex, Prod.Lex.toLex_le_toLex]
  split_ifs with hsource htarget
  · simp [hsource]
  · simp [not_not.1 hsource, htarget]
  · simp [not_not.1 hsource, not_not.1 htarget]

theorem unitBefore_iff (x y : String × MeshUnit) : unitBefore x y ↔ x.1 ≤ y.1 := by
  simp [unitBefore]

variable (g : Graph)

theorem sortedUnits_perm : g.sortedUnits.Perm g.units.toList :=
  perm_sorted placedUnit (fun _ => rfl) _

theorem sortedEdges_perm : g.sortedEdges.Perm g.edges.toList :=
  perm_sorted placedEdge (fun _ => rfl) _

theorem sortedUnits_pairwise : g.sortedUnits.Pairwise fun u v => u.id.text ≤ v.id.text :=
  pairwise_sorted placedUnit (fun _ => rfl) unitBefore_iff _

theorem sortedEdges_pairwise : g.sortedEdges.Pairwise fun e f => place (placedEdge e) ≤ place (placedEdge f) :=
  pairwise_sorted placedEdge (fun _ => rfl) edgeBefore_iff _

end Order

/-- Two graphs have units with the same identifiers, roles and sizes, and the same edges. -/
structure SameParts (a b : Graph) : Prop where
  units : ∀ entry, entry ∈ a.units.toList.map MeshUnit.entry ↔ entry ∈ b.units.toList.map MeshUnit.entry
  edges : ∀ e, e ∈ a.edges ↔ e ∈ b.edges

variable {a b : Graph}

namespace Ordinary

variable (ha : a.Ordinary) (hb : b.Ordinary)
include ha

theorem edge_made {e : Edge} (he : e ∈ a.edges) : e.Made where
  source := ha.placed_of_contains (ha.ends e he).1
  target := ha.placed_of_contains (ha.ends e he).2

theorem nodup_entries : (a.units.toList.map MeshUnit.entry).Nodup := by
  apply List.Nodup.of_map (·.1)
  rw [List.map_map]
  exact ha.nodup_ids

/-- Of two entries of one graph, the identifiers tell which is which. -/
theorem entry_eq {x y : UnitId × UnitRole × Nat} (hx : x ∈ a.units.toList.map MeshUnit.entry)
    (hy : y ∈ a.units.toList.map MeshUnit.entry) (htext : x.1.text = y.1.text) : x = y := by
  obtain ⟨u, hu, rfl⟩ := List.mem_map.1 hx
  obtain ⟨v, hv, rfl⟩ := List.mem_map.1 hy
  have hplaced {w : MeshUnit} (hw : w ∈ a.units.toList) : w.id.Placed :=
    (ha.made w (Array.mem_toList_iff.1 hw)).placed
  have hid : u.id = v.id := UnitId.text_injective (hplaced hu) (hplaced hv) htext
  rw [List.inj_on_of_nodup_map ha.nodup_ids hu hv hid]

theorem edge_eq {e f : Edge} (he : e ∈ a.edges) (hf : f ∈ a.edges)
    (hplace : place (placedEdge e) = place (placedEdge f)) : e = f := by
  obtain ⟨hsource, hrest⟩ := Prod.mk.inj (toLex_inj.1 hplace)
  obtain ⟨htarget, hrank⟩ := Prod.mk.inj (toLex_inj.1 hrest)
  have hkey : e.key = f.key := by
    have hcategory : e.category = f.category := Category.rank_injective hrank
    rw [Edge.key, Edge.key, UnitId.text_injective (ha.edge_made he).source (ha.edge_made hf).source hsource,
      UnitId.text_injective (ha.edge_made he).target (ha.edge_made hf).target htarget, hcategory]
  exact List.inj_on_of_nodup_map ha.nodup_key (Array.mem_toList_iff.2 he) (Array.mem_toList_iff.2 hf) hkey

include hb

/-- Whatever the order they were added in, the same units and edges are hashed in one order. -/
theorem sorted_eq (h : a.SameParts b) :
    a.sortedUnits.map MeshUnit.entry = b.sortedUnits.map MeshUnit.entry ∧ a.sortedEdges = b.sortedEdges := by
  have hunits : (a.sortedUnits.map MeshUnit.entry).Perm (b.sortedUnits.map MeshUnit.entry) :=
    ((sortedUnits_perm a).map _).trans
      (((List.perm_ext_iff_of_nodup ha.nodup_entries hb.nodup_entries).2 h.units).trans
        ((sortedUnits_perm b).map _).symm)
  have hedges : a.sortedEdges.Perm b.sortedEdges := by
    refine (sortedEdges_perm a).trans (.trans ?_ (sortedEdges_perm b).symm)
    refine (List.perm_ext_iff_of_nodup (ha.nodup_key.of_map _) (hb.nodup_key.of_map _)).2 fun e => ?_
    rw [Array.mem_toList_iff, Array.mem_toList_iff]
    exact h.edges e
  constructor
  · have hordered (g : Graph) : (g.sortedUnits.map MeshUnit.entry).Pairwise fun x y => x.1.text ≤ y.1.text :=
      List.pairwise_map.2 (sortedUnits_pairwise g)
    refine hunits.eq_of_pairwise ?_ (hordered a) (hordered b)
    intro x y hx hy hxy hyx
    have hentries := (sortedUnits_perm a).map MeshUnit.entry
    exact ha.entry_eq (hentries.mem_iff.1 hx) (hentries.mem_iff.1 (hunits.mem_iff.2 hy)) (le_antisymm hxy hyx)
  · refine hedges.eq_of_pairwise ?_ (sortedEdges_pairwise a) (sortedEdges_pairwise b)
    intro e f he hf hef hfe
    have hmem {e : Edge} (he : e ∈ a.sortedEdges) : e ∈ a.edges :=
      Array.mem_toList_iff.1 ((sortedEdges_perm a).mem_iff.1 he)
    exact ha.edge_eq (hmem he) (hmem (hedges.mem_iff.2 hf)) (le_antisymm hef hfe)

theorem checksumBytes_eq_iff : a.checksumBytes = b.checksumBytes ↔ a.SameParts b := by
  constructor
  · intro h
    have hmade {g : Graph} (hg : g.Ordinary) : ∀ u ∈ g.sortedUnits, u.Made :=
      fun u hu => hg.made u (Array.mem_toList_iff.1 ((sortedUnits_perm g).mem_iff.1 hu))
    have hedge {g : Graph} (hg : g.Ordinary) : ∀ e ∈ g.sortedEdges, e.Made :=
      fun e he => hg.edge_made (Array.mem_toList_iff.1 ((sortedEdges_perm g).mem_iff.1 he))
    obtain ⟨hunits, hedges⟩ := parts_eq_of_bytes (hmade ha) (hmade hb) (hedge ha) (hedge hb) h
    constructor
    · intro entry
      rw [← ((sortedUnits_perm a).map _).mem_iff, hunits, ((sortedUnits_perm b).map _).mem_iff]
    · intro e
      rw [← Array.mem_toList_iff, ← (sortedEdges_perm a).mem_iff, hedges, (sortedEdges_perm b).mem_iff,
        Array.mem_toList_iff]
  · intro h
    obtain ⟨hunits, hedges⟩ := ha.sorted_eq hb h
    have hentries (g : Graph) : g.sortedUnits.flatMap unitBytes =
        (g.sortedUnits.map MeshUnit.entry).flatMap fun (id, role, units) =>
          textBytes id.text ++ littleEndian 8 role.rank ++ littleEndian 4 units := by
      rw [List.flatMap_map]
      rfl
    rw [checksumBytes, checksumBytes, hentries, hentries, hunits, hedges]

end Ordinary

/-- A checksum sees exactly the units and the edges of a graph. Two graphs assembled by calls, in
whatever order, give the same bytes to hash exactly if they have the same units, told by identifier, role
and size, and the same edges. Then they have the same checksum, and otherwise only a collision of the hash
can give them the same one. -/
theorem Assembled.checksum_spec (ha : a.Assembled) (hb : b.Assembled) :
    (a.checksumBytes = b.checksumBytes ↔ a.SameParts b) ∧
    (a.SameParts b → a.checksum = b.checksum) ∧
    (a.checksum = b.checksum → a.SameParts b ∨
      a.checksumBytes ≠ b.checksumBytes ∧ Hash.sip13 0 0 a.checksumBytes = Hash.sip13 0 0 b.checksumBytes) := by
  have hbytes := ha.ordinary.checksumBytes_eq_iff hb.ordinary
  refine ⟨hbytes, ?_, ?_⟩
  · intro hsame
    rw [checksum, hbytes.2 hsame, ← checksum]
  · intro hchecksum
    by_cases hsame : a.SameParts b
    · exact .inl hsame
    · exact .inr ⟨fun h => hsame (hbytes.1 h), hchecksum⟩

/-- A subgroup whose two units are connected forth and back, assembled in either order. -/
theorem Assembled.checksum_spec_reordered :
    let sg : Subgroup := ⟨0, 0, 5, 0⟩
    let input := MeshUnit.input sg
    let threshold := MeshUnit.threshold sg
    let forth : Edge := ⟨.input 0 0, .threshold 0 0, .forward, "fwd_i0_0", 1⟩
    let back : Edge := ⟨.threshold 0 0, .input 0 0, .backprop, "bkp_t0_0", 2⟩
    let a : Graph := ⟨#[input, threshold], #[forth, back]⟩
    let b : Graph := ⟨#[threshold, input], #[back, forth]⟩
    a.Assembled ∧ b.Assembled ∧ a.SameParts b ∧ a.checksumBytes = b.checksumBytes ∧ a.checksum = b.checksum := by
  intro sg input threshold forth back a b
  have hinput : input.Made := .input (by decide)
  have hthreshold : threshold.Made := .threshold (by decide)
  have hforth {g : Graph} (hg : g.Assembled)
      (h : g.addEdge input.id threshold.id .forward 1 = .ok (true, { g with edges := g.edges.push forth })) :
      Assembled { g with edges := g.edges.push forth } := .addEdge hg h
  have hback {g : Graph} (hg : g.Assembled)
      (h : g.addEdge threshold.id input.id .backprop 2 = .ok (true, { g with edges := g.edges.push back })) :
      Assembled { g with edges := g.edges.push back } := .addEdge hg h
  have ha : a.Assembled :=
    have hunits : Assembled ⟨#[input, threshold], #[]⟩ := .addUnit (.addUnit .empty hinput rfl) hthreshold rfl
    hback (hforth hunits (by cbv)) (by cbv)
  have hb : b.Assembled :=
    have hunits : Assembled ⟨#[threshold, input], #[]⟩ := .addUnit (.addUnit .empty hthreshold rfl) hinput rfl
    hforth (hback hunits (by cbv)) (by cbv)
  have hsame : a.SameParts b := by
    constructor
    · intro entry
      exact List.Perm.mem_iff (.swap ..)
    · intro e
      rw [← Array.mem_toList_iff, ← Array.mem_toList_iff]
      exact List.Perm.mem_iff (.swap ..)
  have hspec := Assembled.checksum_spec ha hb
  exact ⟨ha, hb, hsame, hspec.1.2 hsame, hspec.2.1 hsame⟩

end Graph

end PerceptronMesh

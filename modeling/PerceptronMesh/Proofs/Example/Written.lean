import Mathlib.Data.List.Forall2
import PerceptronMesh.Example.Text
import PerceptronMesh.Proofs.Example.Active
import PerceptronMesh.Proofs.Example.Lists
import PerceptronMesh.Proofs.Example.Merged

/-!
Event blocks as they are written: between brackets the words that address events and keys with their
values, then the lists of the block. What reading takes from a text is set against this form, with the
event that comes of the blocks that address it.
-/

namespace PerceptronMesh.Example

open Numeric

section Addresses

/-- The events that a word between the brackets addresses. -/
inductive Addresses (declared : Option Nat) : Token → List Nat → Prop
  | index {token : Token} {n : Nat} (hread : readWord64 token.text.toList = some n) (hle : n < maxEvents) :
      Addresses declared token [n]
  | range {token : Token} {first last : List Char} {a b : Nat} (htext : token.text.toList = first ++ '-' :: last)
      (hfirst : readWord64 first = some a) (hlast : readWord64 last = some b) (hle : a ≤ b) (hlt : b < maxEvents) :
      Addresses declared token (List.range' a (b + 1 - a))
  | star {count : Nat} (h : declared = some count) : Addresses declared (.word "*") (List.range count)

variable {declared : Option Nat} {token : Token} {indices : List Nat}

theorem checkCount_eq_ok {text : String} {count passed : Nat} (h : checkCount text count = .ok passed) :
    passed = count ∧ count ≤ maxEvents := by
  unfold checkCount at h
  split at h
  · cases h
  · cases h
    exact ⟨rfl, Nat.le_of_not_lt ‹_›⟩

/-- A range is read where it does not go down and does not pass the greatest number of events. -/
theorem range_eq_ok {text : String} {bad : Error} {first last : Nat}
    (h : (if last < first then .error bad
      else (checkCount text (min (last + 1) maxWord64)).map fun _ =>
        (List.range (last + 1 - first)).map (first + ·)) = .ok indices) :
    first ≤ last ∧ last < maxEvents ∧ indices = List.range' first (last + 1 - first) := by
  split at h
  · cases h
  · obtain ⟨passed, hpassed, rfl⟩ := map_eq_ok h
    have hle := (checkCount_eq_ok hpassed).2
    have hmax : maxEvents < maxWord64 := by decide
    refine ⟨Nat.le_of_not_lt ‹_›, ?_, List.range'_eq_map_range.symm⟩
    omega

theorem addresses_of_readIndices (h : readIndices token.text = .ok indices) : Addresses declared token indices := by
  unfold readIndices at h
  dsimp only at h
  split at h
  · split at h
    · obtain ⟨-, hlt, rfl⟩ := range_eq_ok h
      rw [Nat.add_sub_cancel_left]
      exact .index ‹_› hlt
    · cases h
  · rename_i c after hdrop
    split at h
    · obtain ⟨hle, hlt, rfl⟩ := range_eq_ok h
      -- the word is split where it stops having no dash
      have hdash : c = '-' := by
        have hhead := List.head?_dropWhile_not (· ≠ '-') token.text.toList
        rw [hdrop] at hhead
        simpa using hhead
      subst hdash
      have htext := List.takeWhile_append_dropWhile (p := (· ≠ '-')) (l := token.text.toList)
      rw [hdrop] at htext
      exact .range htext.symm ‹_› ‹_› hle hlt
    · cases h

theorem addresses_of_indicesOf (h : BlockHeader.indicesOf declared token = .ok indices) :
    Addresses declared token indices := by
  unfold BlockHeader.indicesOf at h
  split at h
  · subst token
    split at h
    · cases h
      exact .star rfl
    · cases h
  · exact addresses_of_readIndices h

/-- No word addresses an event past the greatest number of them. -/
theorem Addresses.lt_maxEvents (h : Addresses declared token indices)
    (hdeclared : ∀ count, declared = some count → count ≤ maxEvents) :
    ∀ index ∈ indices, index < maxEvents := by
  intro index hindex
  cases h with
  | index _ hlt => exact List.mem_singleton.1 hindex ▸ hlt
  | range _ _ _ _ hlt =>
    obtain ⟨_, hle⟩ := List.mem_range'_1.1 hindex
    omega
  | star hcount => exact Nat.lt_of_lt_of_le (List.mem_range.1 hindex) (hdeclared _ hcount)

end Addresses

section Entries

/-- What stands between the brackets: a key with its value, or a word that addresses events. -/
inductive BlockEntry where
  | setting (key : String) (value : Token)
  | address (token : Token)
deriving DecidableEq, Repr

namespace BlockEntry

def tokens : BlockEntry → List Token
  | .setting key value => [.key key, value]
  | .address token => [token]

def address? : BlockEntry → Option Token
  | .setting _ _ => none
  | .address token => some token

/-- The value that an entry gives to a key. -/
def value? (key : String) : BlockEntry → Option UnitValue
  | .setting own value => if own = key then (readValue value.text).toOption else none
  | .address _ => none

end BlockEntry

/-- The keys of a block that have a value in its events. -/
def BlockHeader.valueKeys : List String := ["max", "min", "grace", "defI", "defT"]

def BlockHeader.valueOf (header : BlockHeader) : String → UnitValue
  | "max" => header.times.max
  | "min" => header.times.min
  | "grace" => header.times.grace
  | "defI" => header.defaults.input
  | "defT" => header.defaults.target
  | _ => none

/-- What a block's entries say, its last setting of a key before any other. A block that addresses
nothing addresses the first event. -/
structure BlockHeader.WrittenAs (declared : Option Nat) (entries : List BlockEntry) (header : BlockHeader) : Prop where
  indices : ∃ named, List.Forall₂ (Addresses declared) (entries.filterMap (·.address?)) named ∧
    header.indices = if named.flatten = [] then [0] else named.flatten
  value : ∀ key ∈ valueKeys, header.valueOf key = (entries.reverse.findSome? (·.value? key)).getD none

namespace BlockHeader

variable {declared : Option Nat} {header closed : BlockHeader}

theorem valueOf_assign {own key : String} {value : Token} {next : BlockHeader}
    (h : header.assign own value.text = .ok next) (hkey : key ∈ valueKeys) :
    next.valueOf key = ((BlockEntry.setting own value).value? key).getD (header.valueOf key) := by
  simp only [valueKeys, List.mem_cons, List.not_mem_nil, or_false] at hkey
  unfold assign at h
  split at h
  case h_6 =>
    cases h
    rcases hkey with rfl | rfl | rfl | rfl | rfl <;>
      rw [BlockEntry.value?, if_neg ‹_›, Option.getD_none]
  all_goals
    obtain ⟨read, hread, h⟩ := bind_eq_ok_iff.1 h
    cases h
    rcases hkey with rfl | rfl | rfl | rfl | rfl <;> simp [BlockEntry.value?, valueOf, hread, Except.toOption]

theorem indices_assign {own : String} {value : String} {next : BlockHeader}
    (h : header.assign own value = .ok next) : next.indices = header.indices := by
  unfold assign at h
  split at h
  case h_6 => cases h; rfl
  all_goals
    obtain ⟨_, _, h⟩ := bind_eq_ok_iff.1 h
    cases h
    rfl

/-- What comes after an entry takes precedence over it. -/
theorem last_cons (entry : BlockEntry) (entries : List BlockEntry) (key : String) (before : UnitValue) :
    ((entry :: entries).reverse.findSome? (·.value? key)).getD before =
      (entries.reverse.findSome? (·.value? key)).getD ((entry.value? key).getD before) := by
  rw [List.reverse_cons, List.findSome?_append, List.findSome?_singleton]
  cases entries.reverse.findSome? (·.value? key) <;> rfl

/-- Reading goes on from what is read before with one entry after another. -/
theorem entries_of_read {tokens rest : List Token} (h : read declared header tokens = .ok (closed, rest)) :
    ∃ entries : List BlockEntry, tokens = entries.flatMap (·.tokens) ++ .blockClose :: rest ∧
      (∃ named, List.Forall₂ (Addresses declared) (entries.filterMap (·.address?)) named ∧
        closed.indices = if header.indices ++ named.flatten = [] then [0] else header.indices ++ named.flatten) ∧
      ∀ key ∈ valueKeys, closed.valueOf key =
        (entries.reverse.findSome? (·.value? key)).getD (header.valueOf key) := by
  fun_induction read declared header tokens with
  | case1 => cases h
  | case2 header rest =>
    cases h
    refine ⟨[], rfl, ⟨[], .nil, ?_⟩, fun key hkey => ?_⟩
    · simp only [BlockHeader.closed, List.isEmpty_iff, List.flatten_nil, List.append_nil]
      split <;> rfl
    · simp only [BlockHeader.closed]
      split <;> rfl
  | case3 => cases h
  | case4 header token _ hkey value tokens ih =>
    obtain ⟨name, rfl⟩ : ∃ name, token = .key name := by
      cases token with
      | key name => exact ⟨name, rfl⟩
      | _ => cases hkey
    obtain ⟨text, htext, h⟩ := bind_eq_ok_iff.1 h
    obtain rfl : value.text = text := by
      unfold valueFor at htext
      split at htext <;> cases htext
      rfl
    obtain ⟨next, hnext, h⟩ := bind_eq_ok_iff.1 h
    obtain ⟨entries, rfl, hindices, hvalue⟩ := ih next h
    rw [indices_assign hnext] at hindices
    refine ⟨.setting name value :: entries, rfl, hindices, fun key hmem => ?_⟩
    rw [hvalue key hmem, valueOf_assign hnext hmem, last_cons]
    rfl
  | case5 header token tokens _ _ ih =>
    obtain ⟨indices, hindices, h⟩ := bind_eq_ok_iff.1 h
    obtain ⟨entries, rfl, ⟨named, hnamed, hclosed⟩, hvalue⟩ := ih indices h
    refine ⟨.address token :: entries, rfl, ⟨indices :: named, .cons (addresses_of_indicesOf hindices) hnamed, ?_⟩,
      fun key hkey => ?_⟩
    · rw [List.flatten_cons, ← List.append_assoc]
      exact hclosed
    · rw [hvalue key hkey, last_cons]
      rfl

/-- Between its brackets a block is written as it is read. -/
theorem writtenAs_of_read {tokens rest : List Token} (h : read declared {} tokens = .ok (closed, rest)) :
    ∃ entries : List BlockEntry, tokens = entries.flatMap (·.tokens) ++ .blockClose :: rest ∧
      WrittenAs declared entries closed := by
  obtain ⟨entries, htokens, hindices, hvalue⟩ := entries_of_read h
  refine ⟨entries, htokens, hindices, fun key hkey => ?_⟩
  rw [hvalue key hkey]
  congr 1
  simp only [valueKeys, List.mem_cons, List.not_mem_nil, or_false] at hkey
  rcases hkey with rfl | rfl | rfl | rfl | rfl <;> rfl

theorem WrittenAs.lt_maxEvents {entries : List BlockEntry} (h : WrittenAs declared entries header)
    (hdeclared : ∀ count, declared = some count → count ≤ maxEvents) :
    ∀ index ∈ header.indices, index < maxEvents := by
  obtain ⟨named, hnamed, hindices⟩ := h.indices
  intro index hindex
  rw [hindices] at hindex
  split at hindex
  · rw [List.mem_singleton.1 hindex]
    decide
  · obtain ⟨indices, hmember, hmem⟩ := List.mem_flatten.1 hindex
    obtain ⟨token, _, haddresses⟩ := Binding.exists_of_forall₂ hnamed.flip hmember
    exact haddresses.lt_maxEvents hdeclared index hmem

theorem WrittenAs.indices_ne_nil {entries : List BlockEntry} (h : WrittenAs declared entries header) :
    header.indices ≠ [] := by
  obtain ⟨named, _, hindices⟩ := h.indices
  rw [hindices]
  split
  · exact List.cons_ne_nil _ _
  · assumption

end BlockHeader

end Entries

section Blocks

variable {active : Active} {declared : Option Nat}

theorem suffix_of_readRuns {tokens rest : List Token} {runs : Runs} (h : readRuns tokens = .ok (runs, rest)) :
    rest <:+ tokens := by
  fun_induction readRuns tokens generalizing runs rest with
  | case1 => cases h; exact List.suffix_refl _
  | case2 => cases h
  | case3 => cases h
  | case4 => cases h
  | case5 label tokens _ _ head after hdrop =>
    rename_i ih
    obtain ⟨⟨inner, remaining⟩, hinner, hok⟩ := bind_eq_ok_iff.1 h
    cases hok
    have hafter : after <:+ tokens := (List.suffix_cons head after).trans (hdrop ▸ List.dropWhile_suffix _)
    exact ((ih hinner).trans hafter).trans (List.suffix_append [_, label] tokens)
  | case6 => cases h; exact List.suffix_refl _
  | case7 token tokens _ _ _ _ ih =>
    obtain ⟨⟨inner, remaining⟩, hinner, hok⟩ := bind_eq_ok_iff.1 h
    cases hok
    exact (ih hinner).trans (List.suffix_cons token tokens)

theorem suffix_of_readLists {tokens rest : List Token} {lists : EventLists}
    (h : readLists active tokens = .ok (lists, rest)) : rest <:+ tokens := by
  fun_induction readLists active tokens generalizing lists rest with
  | case1 => cases h; exact List.suffix_refl _
  | case2 => cases h; exact List.suffix_refl _
  | case3 => cases h
  | case4 token tokens key _ runs after hruns ih =>
    obtain ⟨first, _, h⟩ := bind_eq_ok_iff.1 h
    obtain ⟨⟨more, remaining⟩, hmore, hok⟩ := bind_eq_ok_iff.1 h
    cases hok
    exact ((ih hmore).trans (suffix_of_readRuns hruns)).trans (List.suffix_cons token tokens)

/-- Blocks one after another, each with its brackets and the clauses of its lists. -/
inductive Written (active : Active) (declared : Option Nat) : List Token → List Block → Prop
  | nil : Written active declared [] []
  | cons {entries : List BlockEntry} {header : BlockHeader} {clauses following : List Token} {lists : EventLists}
      {blocks : List Block} (hheader : header.WrittenAs declared entries)
      (hlists : readLists active (clauses ++ following) = .ok (lists, following))
      (hblocks : Written active declared following blocks) :
      Written active declared
        (.blockOpen :: (entries.flatMap (·.tokens) ++ .blockClose :: (clauses ++ following)))
        (⟨header, lists⟩ :: blocks)

theorem written_of_readBlocks {tokens : List Token} {blocks : List Block}
    (h : readBlocks active declared tokens = .ok (blocks, [])) : Written active declared tokens blocks := by
  fun_induction readBlocks active declared tokens generalizing blocks with
  | case1 => cases h
  | case2 => cases h
  | case3 tokens header after hheader lists remaining hlists ih =>
    obtain ⟨⟨others, final⟩, hothers, hok⟩ := bind_eq_ok_iff.1 h
    cases hok
    obtain ⟨entries, rfl, hwritten⟩ := BlockHeader.writtenAs_of_read hheader
    obtain ⟨clauses, rfl⟩ := suffix_of_readLists hlists
    exact .cons hwritten hlists (ih hothers)
  | case4 =>
    cases h
    exact .nil

end Blocks

section Segment

theorem declared_of_read {start prelude : Prelude} {tokens rest : List Token}
    (h : Prelude.read start tokens = .ok (prelude, rest))
    (hstart : ∀ count, start.declared = some count → count ≤ maxEvents) :
    ∀ count, prelude.declared = some count → count ≤ maxEvents := by
  fun_induction Prelude.read start tokens with
  | case1 => cases h; exact hstart
  | case2 => cases h; exact hstart
  | case3 => cases h; exact hstart
  | case4 => cases h
  | case5 start key _ value tokens ih =>
    obtain ⟨text, _, h⟩ := bind_eq_ok_iff.1 h
    obtain ⟨next, hnext, h⟩ := bind_eq_ok_iff.1 h
    refine ih next h ?_
    unfold Prelude.assign at hnext
    split at hnext
    · cases hnext; exact hstart
    · obtain ⟨_, _, hnext⟩ := bind_eq_ok_iff.1 hnext
      cases hnext
      exact hstart
    · cases hnext; exact hstart
  | case6 start token tokens _ _ ih =>
    obtain ⟨next, hnext, h⟩ := bind_eq_ok_iff.1 h
    refine ih next h ?_
    unfold Prelude.declare at hnext
    split at hnext
    · obtain ⟨_, hcount, rfl⟩ := map_eq_ok hnext
      intro count heq
      cases heq
      exact (checkCount_eq_ok hcount).2
    · cases hnext

variable {active : Active} {segment rest : List Token} {prelude : Prelude} {e : Example}

/-- Where a block opens behind the prelude of an example, blocks make up all of its rest. -/
theorem written_of_readExample (h : readExample active segment = .ok e)
    (hprelude : Prelude.read {} segment = .ok (prelude, rest)) (hblock : rest.head? = some .blockOpen) :
    ∃ blocks, Written active prelude.declared rest blocks ∧ e.events = mergeBlocks prelude.declared blocks := by
  unfold readExample at h
  obtain ⟨⟨own, left⟩, hown, h⟩ := bind_eq_ok_iff.1 h
  cases hprelude.symm.trans hown
  obtain ⟨events, hevents, h⟩ := bind_eq_ok_iff.1 h
  cases h
  unfold readEvents at hevents
  rw [if_pos hblock] at hevents
  obtain ⟨⟨blocks, left⟩, hblocks, hevents⟩ := bind_eq_ok_iff.1 hevents
  obtain ⟨_, hleft, hevents⟩ := bind_eq_ok_iff.1 hevents
  cases hevents
  obtain rfl : left = [] := by
    cases left with
    | nil => rfl
    | cons => cases hleft
  exact ⟨blocks, written_of_readBlocks hblocks, rfl⟩

theorem Written.lt_maxEvents {declared : Option Nat} {tokens : List Token} {blocks : List Block}
    (h : Written active declared tokens blocks) (hdeclared : ∀ count, declared = some count → count ≤ maxEvents) :
    ∀ index ∈ blocks.flatMap (·.header.indices), index < maxEvents := by
  induction h with
  | nil => simp
  | cons hheader _ _ ih =>
    intro index hindex
    rw [List.flatMap_cons, List.mem_append] at hindex
    rcases hindex with hown | hother
    · exact hheader.lt_maxEvents hdeclared index hown
    · exact ih index hother

/-- Some block addresses a highest event. -/
theorem Written.exists_highest {declared : Option Nat} {tokens : List Token} {blocks : List Block}
    (h : Written active declared tokens blocks) (htokens : tokens ≠ []) :
    ∃ highest, (blocks.flatMap (·.header.indices)).max? = some highest := by
  cases h with
  | nil => exact absurd rfl htokens
  | cons hheader _ _ =>
    apply Option.isSome_iff_exists.1
    obtain ⟨index, hindex⟩ := List.exists_mem_of_ne_nil _ hheader.indices_ne_nil
    exact List.isSome_max?_of_mem (List.mem_flatMap.2 ⟨_, List.mem_cons_self, hindex⟩)

/-- Events of an example that is written in blocks. There is one for each that is declared or
addressed, made of the blocks that address it; the merge itself, whatever its blocks are, addresses no
event outside the events it has. -/
theorem merged_by_address :
    (∀ declared blocks, mergeBlocks? declared blocks = some (mergeBlocks declared blocks)) ∧
    ∀ {active : Active} {segment rest : List Token} {prelude : Prelude} {e : Example},
      readExample active segment = .ok e → Prelude.read {} segment = .ok (prelude, rest) →
      rest.head? = some .blockOpen → ∃ blocks highest,
        Written active prelude.declared rest blocks ∧
        (blocks.flatMap (·.header.indices)).max? = some highest ∧
        e.events.length = max (prelude.declared.getD 0) (highest + 1) ∧ e.events.length ≤ maxEvents ∧
        ∀ i event, e.events[i]? = some event → MergedFrom blocks i event := by
  refine ⟨mergeBlocks?_eq, ?_⟩
  intro active segment rest prelude e h hprelude hblock
  obtain ⟨blocks, hwritten, hevents⟩ := written_of_readExample h hprelude hblock
  have hrest : rest ≠ [] := by
    rintro rfl
    cases hblock
  obtain ⟨highest, hhighest⟩ := hwritten.exists_highest hrest
  have hlength : e.events.length = max (prelude.declared.getD 0) (highest + 1) := by
    rw [hevents, length_mergeBlocks, mergedCount_eq, addressed_eq, hhighest]
    rfl
  have hdeclared := declared_of_read hprelude fun _ hnone => by cases hnone
  have hdeclaredLe : prelude.declared.getD 0 ≤ maxEvents := by
    cases hcount : prelude.declared with
    | none => exact Nat.zero_le _
    | some count => exact hdeclared count hcount
  have hhighestLt : highest < maxEvents :=
    hwritten.lt_maxEvents hdeclared highest (List.max?_mem hhighest)
  refine ⟨blocks, highest, hwritten, hhighest, hlength, ?_, fun i event hevent => ?_⟩
  · rw [hlength]
    exact Nat.max_le.2 ⟨hdeclaredLe, hhighestLt⟩
  · rw [hevents, getElem?_mergeBlocks] at hevent
    split at hevent
    · cases hevent
      exact mergedFrom_mergedEvent blocks i
    · cases hevent

/-- The second block overlaps the first and names its event twice; no block addresses the third event. -/
theorem merged_by_address_overlap :
    let active : Active := { input := .ofNat 1, target := .ofNat 1 }
    let segment := Token.tokens "name: a 3 [0-1 max: 5] I: 1 [1 1 max: - min: 2] T: 0".toList
    let zero : ValueList := ⟨none, .dense [some (.ofNat 0)]⟩
    let one : ValueList := ⟨none, .dense [some (.ofNat 1)]⟩
    let first : Event := { times := { max := some (.ofNat 5) }, inputs := [one] }
    let second : Event :=
      { times := { max := some (.ofNat 5), min := some (.ofNat 2) }, inputs := [one], targets := [zero, zero] }
    readExample active segment = .ok { name := some "a", events := [first, second, {}] } ∧
      ∃ blocks, MergedFrom blocks 1 second ∧ MergedFrom blocks 2 {} := by
  intro active segment zero one first second
  have hread : readExample active segment = .ok { name := some "a", events := [first, second, {}] } := by
    decide +kernel
  have hprelude : Prelude.read {} segment =
      .ok ({ name := some "a", declared := some 3 }, segment.drop 3) := by
    decide +kernel
  obtain ⟨blocks, _, _, _, _, _, hmerged⟩ := merged_by_address.2 hread hprelude rfl
  exact ⟨hread, blocks, hmerged 1 second rfl, hmerged 2 {} rfl⟩

end Segment

end PerceptronMesh.Example

import PerceptronMesh.Proofs.Example.Written

/-!
A starred block against lists without a block. Where an example declares a count of events, both are
meant for every one of them. They agree unless that count is 0: a block that addresses no event
addresses the first, so that a star over no events still makes one.
-/

namespace PerceptronMesh.Example

open Numeric

variable {active : Active} {start prelude : Prelude} {front clauses more : List Token} {lists : EventLists}
  {word : String} {count : Nat}

section Front

/-- A prelude that is read to its end is read the same in front of more tokens. -/
theorem read_append (h : Prelude.read start front = .ok (prelude, [])) :
    Prelude.read start (front ++ more) = Prelude.read prelude more := by
  fun_induction Prelude.read start front with
  | case1 => cases h; rfl
  | case2 => cases h
  | case3 => cases h
  | case4 => cases h
  | case5 start name hkey value tokens ih =>
    obtain ⟨text, htext, h⟩ := bind_eq_ok_iff.1 h
    obtain ⟨next, hnext, h⟩ := bind_eq_ok_iff.1 h
    rw [List.cons_append, List.cons_append, Prelude.read, if_neg hkey, htext]
    change (start.assign name text >>= fun next => Prelude.read next (tokens ++ more)) = _
    rw [hnext]
    exact ih next h
  | case6 start token tokens hblock hkey ih =>
    obtain ⟨next, hnext, h⟩ := bind_eq_ok_iff.1 h
    rw [List.cons_append, Prelude.read, hnext]
    · exact ih next h
    · exact hblock
    · exact hkey

theorem read_count (hcount : readWord64 word.toList = some count) (hle : count ≤ maxEvents) :
    Prelude.read start (.word word :: more) = Prelude.read { start with declared := some count } more := by
  have hdeclare : start.declare (Token.word word).text = .ok { start with declared := some count } := by
    rw [Prelude.declare, Token.text, hcount]
    dsimp only
    rw [checkCount, if_neg (Nat.not_lt.2 hle)]
    rfl
  rw [Prelude.read, hdeclare]
  · rfl
  · simp
  · simp

/-- Lists that reach the end of a text start with a key of theirs. -/
theorem clauses_eq (h : readLists active clauses = .ok (lists, [])) :
    clauses = [] ∨ ∃ name rest, clauses = .key name :: rest ∧ !Prelude.keys.contains name := by
  cases clauses with
  | nil => exact .inl rfl
  | cons token rest =>
    rw [readLists] at h
    split at h
    · cases h
    · rename_i key hkey
      unfold Token.listKey? at hkey
      split at hkey
      case h_7 => cases hkey
      all_goals exact .inr ⟨_, _, rfl, by decide⟩

theorem read_clauses (h : readLists active clauses = .ok (lists, [])) :
    Prelude.read start clauses = .ok (start, clauses) := by
  obtain rfl | ⟨name, rest, rfl, hname⟩ := clauses_eq h
  · rfl
  · cases rest <;> rw [Prelude.read, if_pos hname]

end Front

section Events

/-- An event with the lists of `lists` and nothing else. -/
def EventLists.toEvent (lists : EventLists) : Event := { inputs := lists.inputs, targets := lists.targets }

theorem readEvents_unbracketed (hlists : readLists active clauses = .ok (lists, [])) :
    readEvents active (some count) clauses = .ok (List.replicate count lists.toEvent) := by
  have hhead : clauses.head? ≠ some .blockOpen := by
    obtain rfl | ⟨name, rest, rfl, _⟩ := clauses_eq hlists <;> simp
  rw [readEvents, if_neg hhead, hlists]
  rfl

/-- The header of a block with nothing but a star between its brackets. -/
def starredHeader (count : Nat) : BlockHeader := { indices := List.range (max count 1) }

/-- A star over no events addresses the first one all the same. -/
theorem closed_star (count : Nat) : BlockHeader.closed { indices := List.range count } = starredHeader count := by
  cases count with
  | zero => rfl
  | succ count =>
    rw [starredHeader, BlockHeader.closed, if_neg (by simp), Nat.max_eq_left (Nat.le_add_left 1 count)]

theorem read_starredHeader : BlockHeader.read (some count) {} (.word "*" :: .blockClose :: clauses) =
    .ok (starredHeader count, clauses) := by
  rw [BlockHeader.read, if_neg (by decide), ← closed_star]
  · rfl
  · simp

theorem readBlocks_starred (hlists : readLists active clauses = .ok (lists, [])) :
    readBlocks active (some count) (.blockOpen :: .word "*" :: .blockClose :: clauses) =
      .ok ([⟨starredHeader count, lists⟩], []) := by
  rw [readBlocks]
  split
  · rename_i hheader
    cases read_starredHeader.symm.trans hheader
  · rename_i hheader
    cases read_starredHeader.symm.trans hheader
    split
    · rename_i hlists'
      cases hlists.symm.trans hlists'
    · rename_i hlists'
      cases hlists.symm.trans hlists'
      rw [readBlocks]
      · rfl
      · simp

theorem addressed_starred (count : Nat) (lists : EventLists) :
    addressed [⟨starredHeader count, lists⟩] = max count 1 := by
  obtain ⟨highest, hhighest⟩ : ∃ highest, max count 1 = highest + 1 := ⟨max count 1 - 1, by omega⟩
  have hmax : (List.range (highest + 1)).max? = some highest :=
    List.max?_eq_some_iff.2 ⟨List.self_mem_range_succ, fun index hindex =>
      Nat.le_of_lt_succ (List.mem_range.1 hindex)⟩
  rw [addressed_eq, List.flatMap_singleton, starredHeader, hhighest, hmax]
  rfl

/-- A starred block gives its lists once to every event that it addresses. -/
theorem mergeBlocks_starred (count : Nat) (lists : EventLists) :
    mergeBlocks (some count) [⟨starredHeader count, lists⟩] = List.replicate (max count 1) lists.toEvent := by
  apply List.ext_getElem?
  intro e
  rw [getElem?_mergeBlocks, mergedCount_eq, addressed_starred, List.getElem?_replicate, Option.getD_some,
    ← Nat.max_assoc, Nat.max_self]
  split
  · have hcount : (starredHeader count).indices.count e = 1 := by
      exact List.count_eq_one_of_mem List.nodup_range (List.mem_range.2 ‹_›)
    rw [mergedEvent, List.foldl_cons, List.foldl_nil, hcount]
    rfl
  · rfl

theorem readEvents_starred (hlists : readLists active clauses = .ok (lists, [])) :
    readEvents active (some count) (.blockOpen :: .word "*" :: .blockClose :: clauses) =
      .ok (List.replicate (max count 1) lists.toEvent) := by
  rw [readEvents, if_pos List.head?_cons, readBlocks_starred hlists, ← mergeBlocks_starred]
  rfl

end Events

/-- An example of `count` equal events. -/
def Prelude.exampleOf (prelude : Prelude) (count : Nat) (event : Event) : Example :=
  { name := prelude.name, frequency := prelude.frequency, events := List.replicate count event }

/-- Lists without a block and lists in a starred block, behind the same prelude and count. Both give the
lists to every event that is declared; the starred block makes an event where none is. -/
theorem starred_spec (hfront : Prelude.read {} front = .ok (prelude, []))
    (hcount : readWord64 word.toList = some count) (hle : count ≤ maxEvents)
    (hlists : readLists active clauses = .ok (lists, [])) :
    let unbracketed := front ++ .word word :: clauses
    let starred := front ++ .word word :: .blockOpen :: .word "*" :: .blockClose :: clauses
    readExample active unbracketed = .ok (prelude.exampleOf count lists.toEvent) ∧
      readExample active starred = .ok (prelude.exampleOf (max count 1) lists.toEvent) ∧
      (readExample active starred = readExample active unbracketed ↔ 0 < count) := by
  intro unbracketed starred
  have hunbracketed : readExample active unbracketed = .ok (prelude.exampleOf count lists.toEvent) := by
    rw [readExample, read_append hfront, read_count hcount hle, read_clauses hlists]
    exact bind_eq_ok_iff.2 ⟨_, rfl, bind_eq_ok_iff.2 ⟨_, readEvents_unbracketed hlists, rfl⟩⟩
  have hstarred : readExample active starred = .ok (prelude.exampleOf (max count 1) lists.toEvent) := by
    rw [readExample, read_append hfront, read_count hcount hle, Prelude.read]
    exact bind_eq_ok_iff.2 ⟨_, rfl, bind_eq_ok_iff.2 ⟨_, readEvents_starred hlists, rfl⟩⟩
  refine ⟨hunbracketed, hstarred, ?_⟩
  rw [hunbracketed, hstarred]
  constructor
  · intro heq
    -- at 0 the numbers of events differ
    have hlength := congrArg (fun e : Example => e.events.length) (Except.ok.inj heq)
    simp only [Prelude.exampleOf, List.length_replicate] at hlength
    omega
  · intro hpos
    rw [Nat.max_eq_left hpos]

/-- Three events, each with the same list. -/
theorem starred_spec_three :
    let active : Active := { input := .ofNat 1, target := .ofNat 1 }
    let event : Event := { inputs := [⟨none, .dense [some (.ofNat 5)]⟩] }
    let expected : Example := { name := some "a", events := [event, event, event] }
    readExample active (Token.tokens "name: a 3 I: 5".toList) = .ok expected ∧
      readExample active (Token.tokens "name: a 3 [*] I: 5".toList) = .ok expected := by
  intro active event expected
  have hfront : Prelude.read {} [.key "name", .word "a"] = .ok ({ name := some "a" }, []) := rfl
  have hcount : readWord64 "3".toList = some 3 := by decide +kernel
  have hlists : readLists active [.key "I", .word "5"] = .ok ({ inputs := event.inputs }, []) := by
    decide +kernel
  obtain ⟨hunbracketed, hstarred, _⟩ := starred_spec hfront hcount (by decide) hlists
  have hunbracketedTokens : Token.tokens "name: a 3 I: 5".toList =
      [.key "name", .word "a", .word "3", .key "I", .word "5"] := by
    decide +kernel
  have hstarredTokens : Token.tokens "name: a 3 [*] I: 5".toList =
      [.key "name", .word "a", .word "3", .blockOpen, .word "*", .blockClose, .key "I", .word "5"] := by
    decide +kernel
  rw [hunbracketedTokens, hstarredTokens]
  exact ⟨hunbracketed, hstarred⟩

/-- A star over no declared event makes one, where the lists alone make none. -/
theorem starred_makes_undeclared :
    let event : Event := { inputs := [⟨none, .dense [some (.ofNat 1)]⟩] }
    readText "name: a 0 I: 1 ;".toList = .ok { examples := [{ name := some "a" }] } ∧
      readText "name: a 0 [*] I: 1 ;".toList = .ok { examples := [{ name := some "a", events := [event] }] } ∧
      ¬ readText "name: a 0 [*] I: 1 ;".toList = readText "name: a 0 I: 1 ;".toList := by
  intro event
  exact ⟨by decide +kernel, by decide +kernel, by decide +kernel⟩

end PerceptronMesh.Example

import PerceptronMesh.Proofs.Weights.Text

/-!
What a weights text has to say to be accepted, line by line. The lines behind a weight are there but
are not looked at, and neither is anything past the last weight.
-/

namespace PerceptronMesh.Weights

open Numeric

/-- The lines of a text that are not blank, trimmed. -/
def textLines (text : List Char) : List (List Char) :=
  ((Text.lines text).map Text.trim).filter fun line => !line.isEmpty

/-- The lines of a text that is accepted where so many links have to be announced and `count` weights
are read, each `perLink` lines long. -/
structure Accepts (announced count perLink : Nat) (lines : List (List Char)) : Prop where
  magic : lines[0]?.bind (readNatural maxWord64) = some magicNumber
  links : lines[1]?.bind (readNatural maxWord64) = some announced
  valuesPerLink : lines[2]?.bind (readNatural maxWord64) = some perLink
  one_le : 1 ≤ perLink
  le_three : perLink ≤ 3
  updates : ∃ updates, lines[3]?.bind (readNatural maxWord64) = some updates
  length_le : 4 + count * perLink ≤ lines.length
  weight : ∀ k < count, ∃ x, lines[4 + k * perLink]?.bind readReal = some x

theorem getElem?_numberedLines (text : List Char) (k : Nat) :
    (numberedLines text)[k]? = (textLines text)[k]?.map fun line => (k + 1, String.ofList line) := by
  rw [numberedLines, List.getElem?_mapIdx]
  rfl

theorem length_numberedLines (text : List Char) : (numberedLines text).length = (textLines text).length :=
  List.length_mapIdx

theorem headerNumber_eq_ok {text : List Char} {header : WeightsHeader} {k n : Nat} :
    headerNumber header (numberedLines text)[k]? = .ok n ↔
      (textLines text)[k]?.bind (readNatural maxWord64) = some n := by
  rw [getElem?_numberedLines]
  cases (textLines text)[k]? with
  | none => simp [headerNumber]
  | some line =>
    rw [Option.map_some, headerNumber, String.toList_ofList, Option.bind_some]
    cases readNatural maxWord64 line <;> simp

/-- The header of an accepted text says how long its weights are and counts them. -/
theorem readHeader_numberedLines {count : Nat} {text : List Char} {info : Info} :
    readHeader count (numberedLines text) = .ok info ↔
      (textLines text)[0]?.bind (readNatural maxWord64) = some magicNumber ∧
      (textLines text)[1]?.bind (readNatural maxWord64) = some count ∧
      (textLines text)[2]?.bind (readNatural maxWord64) = some info.valuesPerLink ∧
      1 ≤ info.valuesPerLink ∧ info.valuesPerLink ≤ 3 ∧ info.links = count ∧
      ∃ updates, (textLines text)[3]?.bind (readNatural maxWord64) = some updates ∧
        info.updates = UInt32.ofNat updates := by
  simp only [readHeader_eq_ok_iff, headerNumber_eq_ok]

/-- Weights are read where there are lines enough and the first of each is a number. -/
theorem exists_readValues_iff {extra count : Nat} {lines : List (Nat × String)} :
    (∃ values, readValues extra count lines = .ok values) ↔
    count * (extra + 1) ≤ lines.length ∧
      ∀ k < count, ∃ x, lines[k * (extra + 1)]?.bind weightIn = some x := by
  induction count generalizing lines with
  | zero => simp [readValues]
  | succ count ih =>
    have hstep : (∃ values, readValues extra (count + 1) lines = .ok values) ↔
        (∃ x, lines[0]?.bind weightIn = some x) ∧ extra + 1 ≤ lines.length ∧
          ∃ values, readValues extra count (lines.drop (extra + 1)) = .ok values := by
      rw [readValues_succ]
      constructor
      · rintro ⟨values, h⟩
        obtain ⟨⟨x, after⟩, hnext, h⟩ := bind_eq_ok_iff.1 h
        obtain ⟨others, hothers, rfl⟩ := map_eq_ok h
        obtain ⟨hx, hle, rfl⟩ := nextWeight_eq_ok_iff.1 hnext
        exact ⟨⟨x, hx⟩, hle, others, hothers⟩
      · rintro ⟨⟨x, hx⟩, hle, others, hothers⟩
        refine ⟨x :: others, bind_eq_ok_iff.2 ⟨_, nextWeight_eq_ok_iff.2 ⟨hx, hle, rfl⟩, ?_⟩⟩
        dsimp only
        rw [hothers]
        rfl
    rw [hstep, ih, List.length_drop, Nat.succ_mul]
    simp only [List.getElem?_drop]
    constructor
    · rintro ⟨hfirst, hle, hrest, hothers⟩
      refine ⟨by omega, fun k hk => ?_⟩
      cases k with
      | zero => rwa [Nat.zero_mul]
      | succ k =>
        rw [Nat.succ_mul, Nat.add_comm]
        exact hothers k (Nat.lt_of_succ_lt_succ hk)
    · rintro ⟨hle, hlisted⟩
      have hfirst := hlisted 0 (Nat.succ_pos count)
      rw [Nat.zero_mul] at hfirst
      refine ⟨hfirst, by omega, by omega, fun k hk => ?_⟩
      have hnext := hlisted (k + 1) (Nat.succ_lt_succ hk)
      rwa [Nat.succ_mul, Nat.add_comm] at hnext

section Text

variable {announced count : Nat} {text : List Char} {info : Info}

theorem bind_weightIn (text : List Char) (k : Nat) :
    (numberedLines text)[k]?.bind weightIn = (textLines text)[k]?.bind readReal := by
  rw [getElem?_numberedLines]
  cases (textLines text)[k]? with
  | none => rfl
  | some line => rw [Option.map_some, Option.bind_some, weightIn, String.toList_ofList, Option.bind_some]

/-- A text with a fourth line has four of them. -/
theorem four_le {updates : Nat} (h : (textLines text)[3]?.bind (readNatural maxWord64) = some updates) :
    4 ≤ (textLines text).length := by
  refine Nat.lt_of_not_le fun hshort => ?_
  rw [List.getElem?_eq_none hshort] at h
  cases h

/-- The weights of a text are those of its lines, every one `valuesPerLink` lines behind the one before. -/
theorem exists_values_iff {perLink : Nat} (hone : 1 ≤ perLink) (hlines : 4 ≤ (textLines text).length) :
    (∃ values, readValues (perLink - 1) count ((numberedLines text).drop 4) = .ok values) ↔
      4 + count * perLink ≤ (textLines text).length ∧
        ∀ k < count, ∃ x, (textLines text)[4 + k * perLink]?.bind readReal = some x := by
  rw [exists_readValues_iff, List.length_drop, length_numberedLines, Nat.sub_add_cancel hone]
  simp only [List.getElem?_drop, bind_weightIn]
  exact and_congr_left fun _ => by omega

/-- What is read of the header of an accepted text is what its lines say. -/
theorem accepts_of_readText {values : Array Binary64} (h : readText announced count text = .ok (info, values)) :
    Accepts announced count info.valuesPerLink (textLines text) := by
  unfold readText at h
  obtain ⟨found, hheader, h⟩ := bind_eq_ok_iff.1 h
  obtain ⟨list, hlist, h⟩ := bind_eq_ok_iff.1 h
  cases h
  obtain ⟨hmagic, hlinks, hperLink, hone, hthree, _, updates, hupdates, _⟩ := readHeader_numberedLines.1 hheader
  obtain ⟨hlength, hweight⟩ := (exists_values_iff hone (four_le hupdates)).1 ⟨list, hlist⟩
  exact ⟨hmagic, hlinks, hperLink, hone, hthree, ⟨updates, hupdates⟩, hlength, hweight⟩

/-- A text is accepted exactly for what its lines say. -/
theorem exists_readText_iff : (∃ info values, readText announced count text = .ok (info, values)) ↔
    ∃ perLink, Accepts announced count perLink (textLines text) := by
  constructor
  · rintro ⟨info, values, h⟩
    exact ⟨info.valuesPerLink, accepts_of_readText h⟩
  · rintro ⟨perLink, h⟩
    obtain ⟨updates, hupdates⟩ := h.updates
    obtain ⟨list, hlist⟩ := (exists_values_iff h.one_le (four_le hupdates)).2 ⟨h.length_le, h.weight⟩
    have hheader : readHeader announced (numberedLines text) = .ok ⟨announced, perLink, UInt32.ofNat updates⟩ :=
      readHeader_numberedLines.2 ⟨h.magic, h.links, h.valuesPerLink, h.one_le, h.le_three, rfl, updates, hupdates, rfl⟩
    exact ⟨_, _, bind_eq_ok_iff.2 ⟨_, hheader, bind_eq_ok_iff.2 ⟨_, hlist, rfl⟩⟩⟩

end Text

end PerceptronMesh.Weights

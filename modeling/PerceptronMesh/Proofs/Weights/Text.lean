import PerceptronMesh.Weights.Text

/-!
Accepted weights texts. The header says how many lines a weight takes, and the first of them is
the weight.
-/

namespace PerceptronMesh.Weights

open Numeric

/-- The number in the first line of the `k`-th weight. -/
def listed? (text : List Char) (info : Info) (k : Nat) : Option Binary64 :=
  (numberedLines text)[4 + k * info.valuesPerLink]?.bind fun (_, line) => readReal line.toList

/-- A header is accepted for what its four lines say. -/
theorem readHeader_eq_ok_iff {expected : Nat} {lines : List (Nat × String)} {info : Info} :
    readHeader expected lines = .ok info ↔
      headerNumber .magicCookie lines[0]? = .ok magicNumber ∧ headerNumber .linkCount lines[1]? = .ok expected ∧
      headerNumber .valueCount lines[2]? = .ok info.valuesPerLink ∧
      1 ≤ info.valuesPerLink ∧ info.valuesPerLink ≤ 3 ∧ info.links = expected ∧
      ∃ updates, headerNumber .updateCount lines[3]? = .ok updates ∧ info.updates = UInt32.ofNat updates := by
  unfold readHeader
  constructor
  · intro h
    obtain ⟨magic, hmagic, h⟩ := bind_eq_ok_iff.1 h
    split at h
    · cases h
    rename_i hmagicEq
    obtain ⟨links, hlinks, h⟩ := bind_eq_ok_iff.1 h
    split at h
    · cases h
    rename_i hlinksEq
    obtain ⟨perLink, hperLink, h⟩ := bind_eq_ok_iff.1 h
    split at h
    · cases h
    rename_i hrange
    obtain ⟨updates, hupdates, h⟩ := bind_eq_ok_iff.1 h
    cases h
    obtain rfl := Decidable.not_not.1 hmagicEq
    obtain rfl := Decidable.not_not.1 hlinksEq
    have hbounds : 1 ≤ perLink ∧ perLink ≤ 3 := by omega
    exact ⟨hmagic, hlinks, hperLink, hbounds.1, hbounds.2, rfl, updates, hupdates, rfl⟩
  · rintro ⟨hmagic, hlinks, hperLink, hone, hthree, hcount, updates, hupdates, hinfo⟩
    refine bind_eq_ok_iff.2 ⟨magicNumber, hmagic, ?_⟩
    rw [if_neg (not_not_intro rfl)]
    refine bind_eq_ok_iff.2 ⟨expected, hlinks, ?_⟩
    rw [if_neg (not_not_intro rfl)]
    refine bind_eq_ok_iff.2 ⟨info.valuesPerLink, hperLink, ?_⟩
    rw [if_neg (by omega)]
    refine bind_eq_ok_iff.2 ⟨updates, hupdates, ?_⟩
    rw [← hcount, ← hinfo]
    rfl

theorem readWeight_eq_ok {number : Nat} {line : String} {x : Binary64} (h : readWeight number line = .ok x) :
    readReal line.toList = some x := by
  unfold readWeight at h
  split at h
  · rename_i value hvalue
    exact hvalue.trans (congrArg some (Except.ok.inj h))
  · cases h

section Values

variable {extra count : Nat} {lines : List (Nat × String)}

/-- The number that a line holds, if it is one. -/
def weightIn (line : Nat × String) : Option Binary64 := readReal line.2.toList

/-- The next weight of a text and the lines behind it. -/
def nextWeight (extra : Nat) : List (Nat × String) → Result (Binary64 × List (Nat × String))
  | [] => .error (.weightsFile .endsEarly)
  | (number, line) :: rest => do
    let value ← readWeight number line
    if (rest.take extra).length < extra then throw (.weightsFile .endsEarly)
    pure (value, rest.drop extra)

theorem nextWeight_eq_ok_iff {x : Binary64} {after : List (Nat × String)} :
    nextWeight extra lines = .ok (x, after) ↔
      lines[0]?.bind weightIn = some x ∧ extra + 1 ≤ lines.length ∧ after = lines.drop (extra + 1) := by
  cases lines with
  | nil => simp [nextWeight]
  | cons first rest =>
    obtain ⟨number, line⟩ := first
    have hlength : (rest.take extra).length < extra ↔ ¬ extra + 1 ≤ ((number, line) :: rest).length := by
      simp only [List.length_take, List.length_cons]
      omega
    rw [nextWeight, List.getElem?_cons_zero, Option.bind_some, List.drop_succ_cons]
    constructor
    · intro h
      obtain ⟨value, hvalue, h⟩ := bind_eq_ok_iff.1 h
      split at h
      · cases h
      · rename_i hle
        cases h
        exact ⟨readWeight_eq_ok hvalue, Decidable.not_not.1 (mt hlength.2 hle), rfl⟩
    · rintro ⟨hx, hle, rfl⟩
      refine bind_eq_ok_iff.2 ⟨x, ?_, ?_⟩
      · rw [readWeight, show readReal line.toList = some x from hx]
      · rw [if_neg (mt hlength.1 (not_not_intro hle))]
        rfl

theorem readValues_succ : readValues extra (count + 1) lines =
    nextWeight extra lines >>= fun (x, after) => (readValues extra count after).map (x :: ·) := by
  cases lines with
  | nil => rfl
  | cons first rest =>
    obtain ⟨number, line⟩ := first
    rw [readValues, nextWeight]
    cases readWeight number line with
    | error e => rfl
    | ok x =>
      by_cases hshort : (rest.take extra).length < extra
      · simp only [bind, Except.bind, if_pos hshort]
        rfl
      · simp only [bind, Except.bind, pure, Except.pure, if_neg hshort]
        cases readValues extra count (rest.drop extra) <;> rfl

/-- Every weight is followed by its extra lines and then by the next weight. -/
theorem readValues_eq_ok {values : List Binary64} (h : readValues extra count lines = .ok values) :
    values.length = count ∧ ∀ k x, values[k]? = some x → lines[k * (extra + 1)]?.bind weightIn = some x := by
  induction count generalizing lines values with
  | zero =>
    obtain rfl := Except.ok.inj h
    exact ⟨rfl, by simp⟩
  | succ count ih =>
    rw [readValues_succ] at h
    obtain ⟨⟨value, after⟩, hnext, h⟩ := bind_eq_ok_iff.1 h
    obtain ⟨others, hothers, rfl⟩ := map_eq_ok h
    obtain ⟨hvalue, _, rfl⟩ := nextWeight_eq_ok_iff.1 hnext
    obtain ⟨hlength, hlisted⟩ := ih hothers
    refine ⟨congrArg Nat.succ hlength, fun k x hx => ?_⟩
    cases k with
    | zero =>
      cases hx
      rw [Nat.zero_mul]
      exact hvalue
    | succ k =>
      have hline := hlisted k x hx
      rw [List.getElem?_drop] at hline
      rw [Nat.succ_mul, Nat.add_comm]
      exact hline

end Values

/-- An accepted text lists as many weights as are read from it. -/
theorem readText_eq_ok {expected count : Nat} {text : List Char} {info : Info} {values : Array Binary64}
    (h : readText expected count text = .ok (info, values)) :
    values.size = count ∧ ∀ k x, values[k]? = some x → listed? text info k = some x := by
  unfold readText at h
  obtain ⟨found, hheader, h⟩ := bind_eq_ok_iff.1 h
  obtain ⟨list, hlist, h⟩ := bind_eq_ok_iff.1 h
  cases h
  obtain ⟨_, _, _, hpos, _⟩ := readHeader_eq_ok_iff.1 hheader
  obtain ⟨hlength, hlisted⟩ := readValues_eq_ok hlist
  refine ⟨List.size_toArray.trans hlength, fun k x hx => ?_⟩
  have hline := hlisted k x (by simpa using hx)
  rw [List.getElem?_drop, Nat.sub_add_cancel hpos] at hline
  exact hline

end PerceptronMesh.Weights

import Mathlib.Data.List.Basic
import PerceptronMesh.Graph.UnitId

/-!
Identifiers made from positions are told apart by their texts.
-/

namespace PerceptronMesh.UnitId

/-- The identifier is made from a position. -/
def Placed : UnitId → Prop
  | .foreign _ => False
  | _ => True

theorem toDigits_injective {m n : Nat} (h : Nat.toDigits 10 m = Nat.toDigits 10 n) : m = n := by
  rw [← Nat.ofDigitChars_ten_toDigits (n := m), h, Nat.ofDigitChars_ten_toDigits]

/-- A number ends at the first character that is no digit. -/
theorem digits_append_inj {m n : Nat} {stop : Char} {r s : List Char} (hstop : stop.isDigit = false)
    (h : Nat.toDigits 10 m ++ stop :: r = Nat.toDigits 10 n ++ stop :: s) : m = n ∧ r = s := by
  have htake (k : Nat) (tail : List Char) :
      (Nat.toDigits 10 k ++ stop :: tail).takeWhile Char.isDigit = Nat.toDigits 10 k := by
    have hdigits : ∀ c ∈ Nat.toDigits 10 k, c.isDigit :=
      fun c hc => Nat.isDigit_of_mem_toDigits (by decide) (by decide) hc
    rw [List.takeWhile_append_of_pos hdigits, List.takeWhile_cons_of_neg (by simp [hstop]),
      List.append_nil]
  have hsame : Nat.toDigits 10 m = Nat.toDigits 10 n := by rw [← htake m r, h, htake]
  rw [hsame] at h
  exact ⟨toDigits_injective hsame, (List.cons.inj (List.append_cancel_left h)).2⟩

theorem toList_text_weight (group subgroup fromGroup fromSubgroup : Nat) :
    (weight group subgroup fromGroup fromSubgroup).text.toList =
      'w' :: (Nat.toDigits 10 group ++ '.' :: (Nat.toDigits 10 subgroup ++ '<' :: '-' ::
        (Nat.toDigits 10 fromGroup ++ '.' :: Nat.toDigits 10 fromSubgroup))) := by
  simp only [text, String.toList_append, Nat.toString_eq_repr, Nat.toList_repr, List.append_assoc]
  rfl

theorem toList_text_sum (group subgroup node : Nat) :
    (sum group subgroup node).text.toList =
      's' :: (Nat.toDigits 10 group ++ '.' :: (Nat.toDigits 10 subgroup ++ '.' :: Nat.toDigits 10 node)) := by
  simp only [text, String.toList_append, Nat.toString_eq_repr, Nat.toList_repr, List.append_assoc]
  rfl

theorem toList_text_input (group subgroup : Nat) :
    (input group subgroup).text.toList =
      'i' :: (Nat.toDigits 10 group ++ '.' :: Nat.toDigits 10 subgroup) := by
  simp only [text, String.toList_append, Nat.toString_eq_repr, Nat.toList_repr, List.append_assoc]
  rfl

theorem toList_text_threshold (group subgroup : Nat) :
    (threshold group subgroup).text.toList =
      't' :: (Nat.toDigits 10 group ++ '.' :: Nat.toDigits 10 subgroup) := by
  simp only [text, String.toList_append, Nat.toString_eq_repr, Nat.toList_repr, List.append_assoc]
  rfl

/-- The letter names the role, and the numbers can be read off one by one. -/
theorem text_injective {a b : UnitId} (ha : a.Placed) (hb : b.Placed) (h : a.text = b.text) : a = b := by
  have hlist : a.text.toList = b.text.toList := congrArg String.toList h
  cases a <;> cases b <;>
    try simp only [toList_text_weight, toList_text_sum, toList_text_input, toList_text_threshold,
      List.cons.injEq, Char.reduceEq, false_and, true_and] at hlist
  case foreign.foreign | foreign.weight | foreign.sum | foreign.input | foreign.threshold => exact ha.elim
  case weight.foreign | sum.foreign | input.foreign | threshold.foreign => exact hb.elim
  case weight.weight =>
    obtain ⟨hgroup, hrest⟩ := digits_append_inj (by decide) hlist
    obtain ⟨hsubgroup, hsource⟩ := digits_append_inj (by decide) hrest
    obtain ⟨hfromGroup, hlast⟩ := digits_append_inj (by decide) (List.cons.inj hsource).2
    rw [hgroup, hsubgroup, hfromGroup, toDigits_injective hlast]
  case sum.sum =>
    obtain ⟨hgroup, hrest⟩ := digits_append_inj (by decide) hlist
    obtain ⟨hsubgroup, hlast⟩ := digits_append_inj (by decide) hrest
    rw [hgroup, hsubgroup, toDigits_injective hlast]
  case input.input | threshold.threshold =>
    obtain ⟨hgroup, hlast⟩ := digits_append_inj (by decide) hlist
    rw [hgroup, toDigits_injective hlast]

end PerceptronMesh.UnitId

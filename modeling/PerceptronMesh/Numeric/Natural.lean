/-!
Natural numbers read from decimal digits.
-/

namespace PerceptronMesh.Numeric

def digitValue? (c : Char) : Option Nat :=
  if '0' ≤ c ∧ c ≤ '9' then some (c.toNat - '0'.toNat) else none

def isDigit (c : Char) : Bool := (digitValue? c).isSome

/-- The value of a digit, and 0 of any other character. -/
def digitValue (c : Char) : Nat := (digitValue? c).getD 0

/-- The number written by a list of digits, most significant first. -/
def ofDigits (cs : List Char) : Nat := cs.foldl (fun value c => 10 * value + digitValue c) 0

/-- Reads a natural number not above `bound`: an optional plus sign and at
    least one digit, with nothing before or after. -/
def readNatural (bound : Nat) (cs : List Char) : Option Nat :=
  let digits := match cs with
    | '+' :: rest => rest
    | _ => cs
  if digits.isEmpty || !digits.all isDigit then none
  else
    let value := ofDigits digits
    if value ≤ bound then some value else none

/-- The sum of all members of a list, in their own arithmetic: words wrap. -/
def total {α : Type} [Add α] [OfNat α 0] (items : List α) : α := items.foldr (· + ·) 0

theorem toNat_total32 (words : List UInt32) :
    (total words).toNat = total (words.map UInt32.toNat) % Nat.pow 2 32 := by
  induction words with
  | nil => rfl
  | cons w rest ih =>
    show (w + total rest).toNat = (w.toNat + total (rest.map UInt32.toNat)) % Nat.pow 2 32
    rw [UInt32.toNat_add, ih]
    exact (Nat.add_mod_mod ..)

theorem total_ofNat64 {α : Type} (count : α → Nat) (items : List α) :
    total (items.map fun item => UInt64.ofNat (count item)) = .ofNat (total (items.map count)) := by
  induction items with
  | nil => rfl
  | cons item rest ih =>
    show UInt64.ofNat (count item) + total (rest.map fun item => UInt64.ofNat (count item)) =
      .ofNat (count item + total (rest.map count))
    rw [ih, UInt64.ofNat_add]

def maxWord32 : Nat := Nat.pow 2 32 - 1

def maxWord64 : Nat := Nat.pow 2 64 - 1

theorem toNat_min32 (a b : UInt32) : (min a b).toNat = min a.toNat b.toNat := by
  show (if a ≤ b then a else b).toNat = if a.toNat ≤ b.toNat then a.toNat else b.toNat
  simp only [UInt32.le_iff_toNat_le]
  split <;> rfl

/-- The sum of two words, or the largest word if the sum is beyond it. -/
def saturatingAdd (a b : UInt32) : UInt32 := .ofNat (min (a.toNat + b.toNat) maxWord32)

theorem toNat_saturatingAdd (a b : UInt32) :
    (saturatingAdd a b).toNat = min (a.toNat + b.toNat) maxWord32 :=
  UInt32.toNat_ofNat_of_lt' (Nat.lt_succ_of_le (Nat.min_le_right ..))

end PerceptronMesh.Numeric

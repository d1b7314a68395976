import Footprint.Word

/-!
# Decimal numerals

A numeral is one or more ASCII digits; leading zeros are allowed. A word may
also be written with a single plus sign in front, and is read only if its value
is below `2 ^ 64`.
-/

namespace Footprint.Text

/-- The value of a numeral. -/
def numeral? (cs : List Char) : Option Nat :=
  if cs ≠ [] ∧ cs.all Char.isDigit then some (Nat.ofDigitChars 10 cs 0) else none

/-- The text without one leading plus sign. -/
def unsigned : List Char → List Char
  | '+' :: cs => cs
  | cs => cs

/-- The word written by an optionally signed numeral. -/
def word? (cs : List Char) : Option UInt64 :=
  (numeral? (unsigned cs)).bind Word.ofNat?

/-- The decimal form of a number holds digits only. -/
theorem isDigit_of_mem_decimal {n : Nat} {c : Char} (h : c ∈ Nat.toDigits 10 n) :
    c.isDigit = true :=
  Nat.isDigit_of_mem_toDigits (by decide : 0 < 10) (by decide) h

/-- The digits of a number in decimal are a numeral of that value. -/
theorem numeral?_toDigits (n : Nat) : numeral? (Nat.toDigits 10 n) = some n := by
  rw [numeral?, if_pos, Nat.ofDigitChars_ten_toDigits]
  exact ⟨Nat.toDigits_ne_nil, List.all_eq_true.mpr fun _ hc => isDigit_of_mem_decimal hc⟩

/-- Text that starts with a digit has no sign to remove. -/
theorem unsigned_of_isDigit {c : Char} {cs : List Char} (h : c.isDigit = true) :
    unsigned (c :: cs) = c :: cs := by
  unfold unsigned
  split
  · rename_i he
    cases he
    exact absurd h (by decide)
  · rfl

/-- The decimal digits of a word are read as that word. -/
theorem word?_toDigits (w : UInt64) : word? (Nat.toDigits 10 w.toNat) = some w := by
  have hu : unsigned (Nat.toDigits 10 w.toNat) = Nat.toDigits 10 w.toNat := by
    cases he : Nat.toDigits 10 w.toNat with
    | nil => rfl
    | cons c r =>
      refine unsigned_of_isDigit (isDigit_of_mem_decimal (?_ : c ∈ Nat.toDigits 10 w.toNat))
      rw [he]
      exact List.mem_cons_self
  rw [word?, hu, numeral?_toDigits, Option.bind_some, Word.ofNat?_eq_some_iff]

end Footprint.Text

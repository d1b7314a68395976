import Footprint.Proofs.Text.Fields
import Footprint.Text.Blank
import Footprint.Text.Numeral
import Mathlib.Data.List.Induction
import Mathlib.Data.List.TakeWhile

/-!
# Fields, trimmed texts and numerals in words

What a text is divided into, what is left of it without the blanks around it, and which
number it writes can be said without any of the functions that find it. With a delimiter
put at either end, a field stands between two successive delimiters, and its number is the
number of delimiters before the first of the two. A trimmed text starts and ends with no
blank, and nothing else is lost with the blanks. A numeral is a digit, or a numeral and a
digit after it. The functions find exactly what is said so.
-/

namespace Footprint.Text

section Fields

variable {α : Type} [DecidableEq α] {d : α} {cs field : List α} {i : Nat}

/-- The field with the given number stands between two delimiters, once there is one at either
end of the text as well. -/
def IsField (d : α) (cs : List α) (i : Nat) (field : List α) : Prop :=
  ∃ before after, d :: (cs ++ [d]) = before ++ d :: (field ++ d :: after) ∧
    before.count d = i ∧ d ∉ field

end Fields

/-- The text without the blanks around it: what is left neither starts nor ends with a blank, and
all that is lost is blank. -/
structure TrimsTo (cs core : List Char) : Prop where
  /-- Blanks stand around what is left. -/
  around : ∃ before after, cs = before ++ core ++ after ∧
    (∀ c ∈ before, isBlank c = true) ∧ ∀ c ∈ after, isBlank c = true
  /-- What is left does not start with a blank. -/
  head : ∀ c, core.head? = some c → isBlank c = false
  /-- What is left does not end with a blank. -/
  last : ∀ c, core.getLast? = some c → isBlank c = false

section Trim

variable {cs core : List Char}

end Trim

/-- A text of digits, and the number it writes in decimal. -/
inductive Numeral : List Char → Nat → Prop
  /-- A digit writes its value. -/
  | digit {c : Char} : c.isDigit = true → Numeral [c] (c.toNat - '0'.toNat)
  /-- A digit at the end multiplies the number before it by ten and adds its value. -/
  | more {cs : List Char} {n : Nat} {c : Char} : Numeral cs n → c.isDigit = true →
      Numeral (cs ++ [c]) (10 * n + (c.toNat - '0'.toNat))

/-- A numeral, with or without one plus sign in front, and the number it writes. -/
inductive Signed : List Char → Nat → Prop
  /-- The sign may be left out. -/
  | plain {cs : List Char} {n : Nat} : Numeral cs n → Signed cs n
  /-- The sign changes nothing. -/
  | plus {cs : List Char} {n : Nat} : Numeral cs n → Signed ('+' :: cs) n

section Numerals

variable {cs : List Char} {n : Nat}

/-- A digit at the end of digits is the last digit of their number. -/
theorem ofDigitChars_concat (cs : List Char) (c : Char) :
    Nat.ofDigitChars 10 (cs ++ [c]) 0 =
      10 * Nat.ofDigitChars 10 cs 0 + (c.toNat - '0'.toNat) := by
  rw [Nat.ofDigitChars_append, Nat.ofDigitChars_cons, Nat.ofDigitChars_nil]

/-- One or more digits are a numeral, and nothing else is. -/
theorem numeral?_eq_some_iff : numeral? cs = some n ↔ Numeral cs n := by
  rw [numeral?, Option.ite_none_right_eq_some, List.all_eq_true, Option.some.injEq]
  constructor
  · rintro ⟨⟨hne, hdigits⟩, rfl⟩
    induction cs using List.reverseRecOn with
    | nil => exact absurd rfl hne
    | append_singleton cs c ih =>
      have hc : c.isDigit = true := hdigits c (List.mem_append_right cs List.mem_cons_self)
      have hcs : ∀ x ∈ cs, x.isDigit = true := fun x hx => hdigits x (List.mem_append_left [c] hx)
      rw [ofDigitChars_concat]
      by_cases hnil : cs = []
      · subst hnil
        rw [Nat.ofDigitChars_nil, Nat.mul_zero, Nat.zero_add]
        exact .digit hc
      · exact .more (ih hnil hcs) hc
  · intro h
    induction h with
    | @digit c hc =>
      refine ⟨⟨List.cons_ne_nil c [], ?_⟩, ?_⟩
      · intro x hx
        rwa [List.mem_singleton.mp hx]
      · exact Nat.zero_add _
    | @more cs n c _ hc ih =>
      obtain ⟨⟨_, hdigits⟩, rfl⟩ := ih
      refine ⟨⟨List.append_ne_nil_of_right_ne_nil _ (List.cons_ne_nil c []), ?_⟩,
        ofDigitChars_concat cs c⟩
      intro x hx
      rcases List.mem_append.mp hx with hx | hx
      · exact hdigits x hx
      · rwa [List.mem_singleton.mp hx]

/-- A text is read as a word exactly if it writes the number of the word, with or without a sign. -/
theorem word?_eq_some_iff {w : UInt64} : word? cs = some w ↔ Signed cs w.toNat := by
  simp only [word?, Option.bind_eq_some_iff, Word.ofNat?_eq_some_iff, numeral?_eq_some_iff]
  constructor
  · rintro ⟨n, hn, rfl⟩
    unfold unsigned at hn
    split at hn
    · exact .plus hn
    · exact .plain hn
  · intro h
    cases h with
    | plain hn =>
      refine ⟨w.toNat, ?_, rfl⟩
      cases cs with
      | nil => exact hn
      | cons c cs =>
        have hdigits := (Option.ite_none_right_eq_some.mp (numeral?_eq_some_iff.mpr hn)).1.2
        rw [unsigned_of_isDigit (List.all_eq_true.mp hdigits c List.mem_cons_self)]
        exact hn
    | plus hn => exact ⟨w.toNat, hn, rfl⟩

/-- The decimal digits of a number write that number and no other. -/
theorem signed_toDigits_iff {m : Nat} : Signed (Nat.toDigits 10 m) n ↔ n = m := by
  have hdigits {k : Nat} : Numeral (Nat.toDigits 10 m) k ↔ k = m := by
    rw [← numeral?_eq_some_iff, numeral?_toDigits, Option.some.injEq, eq_comm]
  constructor
  · intro h
    generalize hcs : Nat.toDigits 10 m = cs at h
    cases h with
    | plain hn => exact hdigits.mp (hcs ▸ hn)
    | plus _ =>
      have hplus : '+' ∈ Nat.toDigits 10 m := by
        rw [hcs]
        exact List.mem_cons_self
      exact absurd (isDigit_of_mem_decimal hplus) (by decide)
  · rintro rfl
    exact .plain (hdigits.mpr rfl)

end Numerals

end Footprint.Text

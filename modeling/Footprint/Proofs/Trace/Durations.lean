import Footprint.Proofs.Text.Grammar
import Footprint.Trace.Duration

/-!
# Durations in words

A duration is a numeral of a positive number, with or without a plus sign, and one letter after
it: the hours are the number itself or 24 times the number. Nothing may stand before, between or
after them. Exactly such texts are read, as long as the hours are a word; every other text is
refused as a whole. The number itself needs no limit of its own, since the hours are never fewer.
-/

namespace Footprint.Duration

/-- A text that writes a duration, a positive number in one of two units, and the hours in it. -/
inductive Writes : List Char → Nat → Prop
  /-- The hours are written as they are. -/
  | hours {cs : List Char} {n : Nat} : Text.Signed cs n → 0 < n → Writes (cs ++ ['h']) n
  /-- The days are written, each of which has 24 hours. -/
  | days {cs : List Char} {n : Nat} : Text.Signed cs n → 0 < n → Writes (cs ++ ['d']) (24 * n)

variable {cs : List Char} {k : Nat} {text : String} {w : UInt64}

/-- A duration is what its last character makes of the number in front of it. -/
theorem writes_iff :
    Writes cs k ↔ ∃ number c, cs = number ++ [c] ∧
      ∃ n, Text.Signed number n ∧ 0 < n ∧ (c = 'h' ∧ k = n ∨ c = 'd' ∧ k = 24 * n) := by
  constructor
  · intro h
    cases h with
    | hours hn hpos => exact ⟨_, 'h', rfl, _, hn, hpos, Or.inl ⟨rfl, rfl⟩⟩
    | days hn hpos => exact ⟨_, 'd', rfl, _, hn, hpos, Or.inr ⟨rfl, rfl⟩⟩
  · rintro ⟨number, c, rfl, n, hn, hpos, ⟨rfl, rfl⟩ | ⟨rfl, rfl⟩⟩
    · exact .hours hn hpos
    · exact .days hn hpos

/-- Two letters stand for a unit of time. -/
theorem hoursIn_eq_some_iff {c : Char} {hours : UInt64} :
    hoursIn c = some hours ↔ c = 'h' ∧ hours = 1 ∨ c = 'd' ∧ hours = 24 := by
  unfold hoursIn
  split
  · simp [eq_comm]
  · simp [eq_comm]
  · rename_i hh hd
    constructor
    · intro h
      cases h
    · rintro (⟨rfl, _⟩ | ⟨rfl, _⟩)
      · exact absurd rfl hh
      · exact absurd rfl hd

/-- No unit of time is empty. -/
theorem toNat_pos_of_hoursIn {c : Char} {hours : UInt64} (h : hoursIn c = some hours) :
    0 < hours.toNat := by
  rcases hoursIn_eq_some_iff.mp h with ⟨_, rfl⟩ | ⟨_, rfl⟩ <;> decide

/-- The number in a duration is multiplied by the hours in its unit. -/
theorem exists_hoursIn_iff {c : Char} {n : Nat} :
    (∃ hours, hoursIn c = some hours ∧ k = n * hours.toNat) ↔
      c = 'h' ∧ k = n ∨ c = 'd' ∧ k = 24 * n := by
  simp [hoursIn_eq_some_iff, or_and_right, exists_or, and_assoc, Nat.mul_comm n]

/-- The hours of a text are found exactly if it writes them. -/
theorem hours?_eq_some_iff : hours? text = some w ↔ Writes text.toList w.toNat := by
  simp only [hours?, Option.bind_eq_bind, Option.bind_eq_some_iff, Text.word?_eq_some_iff,
    Option.ite_none_left_eq_some, Word.mul?_eq_some_iff, writes_iff, ← exists_hoursIn_iff]
  constructor
  · rintro ⟨c, hc, hours, hhours, count, hcount, hne, hw⟩
    obtain ⟨number, htext⟩ := List.getLast?_eq_some_iff.mp hc
    rw [htext, List.dropLast_concat] at hcount
    have hpos : 0 < count.toNat := Nat.pos_of_ne_zero fun h => hne (UInt64.toNat_inj.mp h)
    exact ⟨number, c, htext, count.toNat, hcount, hpos, hours, hhours, hw⟩
  · rintro ⟨number, c, htext, n, hn, hpos, hours, hhours, hw⟩
    -- the number is not above the hours, so it is a word because they are one
    have hle : n ≤ w.toNat := hw ▸ Nat.le_mul_of_pos_right n (toNat_pos_of_hoursIn hhours)
    have hword := UInt64.toNat_ofNat_of_lt' (Nat.lt_of_le_of_lt hle w.toNat_lt_size)
    refine ⟨c, ?_, hours, hhours, .ofNat n, ?_, ?_, ?_⟩
    · rw [htext, List.getLast?_concat]
    · rwa [htext, List.dropLast_concat, hword]
    · rw [← UInt64.toNat_inj, hword]
      exact Nat.ne_of_gt hpos
    · rwa [hword]

/-- A text is read as the hours that it writes, and only then. -/
theorem hours_eq_ok_iff : hours text = .ok w ↔ Writes text.toList w.toNat := by
  rw [← hours?_eq_some_iff, hours]
  cases hours? text with
  | none => simp only [reduceCtorEq]
  | some h => simp only [Except.ok.injEq, Option.some.injEq]

/-- A text that is no duration is refused as it is. -/
theorem hours_eq_error_iff :
    hours text = .error ⟨text⟩ ↔ ∀ w : UInt64, ¬Writes text.toList w.toNat := by
  simp only [← hours?_eq_some_iff, ← Option.eq_none_iff_forall_ne_some, hours]
  cases hours? text <;> simp only [reduceCtorEq]

/-- The decimal digits of a positive number with one character after them write the number in the
unit for which the character stands. -/
theorem writes_toDigits_iff {m : Nat} (hm : 0 < m) {c : Char} :
    Writes (Nat.toDigits 10 m ++ [c]) k ↔ c = 'h' ∧ k = m ∨ c = 'd' ∧ k = 24 * m := by
  rw [writes_iff]
  constructor
  · rintro ⟨number, c', htext, n, hn, _, hunit⟩
    obtain ⟨rfl, hc⟩ := List.append_inj' htext rfl
    rwa [List.singleton_inj.mp hc, ← Text.signed_toDigits_iff.mp hn]
  · intro hunit
    exact ⟨_, c, rfl, m, Text.signed_toDigits_iff.mpr rfl, hm, hunit⟩

/-- A decimal number of hours is read as that number, and one of days as 24 times the number. -/
theorem hours_toString_iff {m : Nat} (hm : 0 < m) :
    (hours (toString m ++ "h") = .ok w ↔ w.toNat = m) ∧
      (hours (toString m ++ "d") = .ok w ↔ w.toNat = 24 * m) := by
  have htext (letter : String) :
      (toString m ++ letter).toList = Nat.toDigits 10 m ++ letter.toList := by simp [toString]
  have hhours : "h".toList = ['h'] := rfl
  have hdays : "d".toList = ['d'] := rfl
  rw [hours_eq_ok_iff, hours_eq_ok_iff, htext, htext, hhours, hdays, writes_toDigits_iff hm,
    writes_toDigits_iff hm]
  simp

/-- A text is read as a number of hours exactly if it writes that number as a duration, and is
refused as it is if it writes no word. So the decimal of a positive word is read as that many hours
if `h` follows it; with `d` after it, it is read exactly if 24 times the word is a word, and then as
the decimal of that product with `h` is. -/
theorem hours_exact :
    (∀ text w, hours text = .ok w ↔ Writes text.toList w.toNat) ∧
      (∀ text, hours text = .error ⟨text⟩ ↔ ∀ w : UInt64, ¬Writes text.toList w.toNat) ∧
      ∀ n : UInt64, 0 < n →
        hours (toString n ++ "h") = .ok n ∧
        ((∃ w, hours (toString n ++ "d") = .ok w) ↔ 24 * n.toNat < UInt64.size) ∧
        ∀ w, hours (toString n ++ "d") = .ok w ↔
          hours (toString (24 * n.toNat) ++ "h") = .ok w := by
  refine ⟨fun _ _ => hours_eq_ok_iff, fun _ => hours_eq_error_iff, ?_⟩
  intro n hn
  have hpos : 0 < n.toNat := UInt64.lt_iff_toNat_lt.mp hn
  have hword : toString n = toString n.toNat := rfl
  have hmany : 0 < 24 * n.toNat := Nat.mul_pos (by decide) hpos
  rw [hword]
  refine ⟨(hours_toString_iff hpos).1.mpr rfl, ?_, ?_⟩
  · simp only [hours_toString_iff hpos]
    constructor
    · rintro ⟨w, hw⟩
      exact hw ▸ w.toNat_lt_size
    · intro hlt
      exact ⟨.ofNat (24 * n.toNat), UInt64.toNat_ofNat_of_lt' hlt⟩
  · intro w
    rw [(hours_toString_iff hpos).2, (hours_toString_iff hmany).1]

/-- The greatest number of days whose hours are a word, and one day more. -/
theorem hours_exact_of_most_days :
    0 < (768614336404564650 : UInt64) ∧ 0 < (768614336404564651 : UInt64) ∧
      hours "768614336404564651h" = .ok 768614336404564651 ∧
      hours "768614336404564650d" = .ok 18446744073709551600 ∧
      hours "768614336404564651d" = .error ⟨"768614336404564651d"⟩ := by
  have hmost : 0 < (768614336404564650 : UInt64) := by decide
  have hmore : 0 < (768614336404564651 : UInt64) := by decide
  have hproduct : 0 < (18446744073709551600 : UInt64) := by decide
  obtain ⟨hok, herror, hwords⟩ := hours_exact
  obtain ⟨_, _, hsame⟩ := hwords 768614336404564650 hmost
  obtain ⟨hhours, hdays, _⟩ := hwords 768614336404564651 hmore
  refine ⟨hmost, hmore, hhours, (hsame _).mpr (hwords 18446744073709551600 hproduct).1, ?_⟩
  refine (herror _).mpr fun w hw => ?_
  exact absurd (hdays.mp ⟨w, (hok _ w).mpr hw⟩) (by decide)

/- A sign and leading zeros are allowed in front of the number, blanks are not. -/
example : hours "+012h" = .ok 12 ∧ hours " 12h" = .error ⟨" 12h"⟩ := by decide +kernel

end Footprint.Duration

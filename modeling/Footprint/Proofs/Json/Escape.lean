import Footprint.Json.Escape

/-!
# Escapes are undone

A string holds three kinds of spellings: a character that stands for itself, a letter after a
backslash, and a code unit. Every character of a text is written as one of them, and each of
them is read as its character and leaves the rest of the string alone. So reading what was
written gives the text back, whatever it holds, and what was written may stand between quotes.
-/

namespace Footprint.Json

/-- What may stand between the quotes of a string. -/
inductive StringBody : List Char → Prop
  /-- The empty string. -/
  | nil : StringBody []
  /-- A character that stands for itself. -/
  | plain {c : Char} {rest : List Char} (hquote : c ≠ '"') (hbackslash : c ≠ '\\')
      (hcontrol : 0x20 ≤ c.toNat) (hrest : StringBody rest) : StringBody (c :: rest)
  /-- A letter after a backslash. -/
  | short {c : Char} {rest : List Char} (hletter : (shortEscape? c).isSome = true)
      (hrest : StringBody rest) : StringBody ('\\' :: c :: rest)
  /-- A code unit, also if it is half of a pair. -/
  | unit {a b c d : Char} {rest : List Char} (ha : (hexValue? a).isSome = true)
      (hb : (hexValue? b).isSome = true) (hc : (hexValue? c).isSome = true)
      (hd : (hexValue? d).isSome = true) (hrest : StringBody rest) :
      StringBody ('\\' :: 'u' :: a :: b :: c :: d :: rest)

/-- A character other than the backslash is read as itself. -/
theorem unescape?_plain {c : Char} (h : c ≠ '\\') (rest : List Char) :
    unescape? (c :: rest) = (unescape? rest).map (c :: ·) := by
  rw [unescape?.eq_def]
  split <;> simp_all

/-- A letter after a backslash is read as the character for which it stands. -/
theorem unescape?_short {c plain : Char} (h : shortEscape? c = some plain) (rest : List Char) :
    unescape? ('\\' :: c :: rest) = (unescape? rest).map (plain :: ·) := by
  have hu : c ≠ 'u' := by
    rintro rfl
    cases h
  rw [unescape?.eq_def]
  split <;> grind

/-- A code unit that is no half of a pair is read as its character, whatever follows. -/
theorem unescape?_unit {a b c d : Char} {n : Nat} (h : unit? a b c d = some n)
    (hhigh : isHighSurrogate n = false) (hlow : isLowSurrogate n = false) (rest : List Char) :
    unescape? ('\\' :: 'u' :: a :: b :: c :: d :: rest) =
      (unescape? rest).map (Char.ofNat n :: ·) := by
  rw [unescape?.eq_def]
  split <;> grind

/-- The digit written for a number below sixteen has its value. -/
theorem hexValue?_digitChar : ∀ n < 16, hexValue? (Nat.digitChar n) = some n := by
  decide

/-- The four digits written for a control make up its code. -/
theorem unit?_control {n : Nat} (h : n < 0x20) :
    unit? '0' '0' (Nat.digitChar (n / 16)) (Nat.digitChar (n % 16)) = some n := by
  have hzero : hexValue? '0' = some 0 := by decide
  rw [unit?, hzero, hexValue?_digitChar _ (by omega), hexValue?_digitChar _ (by omega)]
  simp only [Option.bind_eq_bind, Option.bind_some, Option.pure_def, Option.some.injEq]
  omega

/-- A character is written as a letter after a backslash, as a control, or as itself. -/
theorem escapeChar_cases (c : Char) :
    (∃ letter, shortEscape? letter = some c ∧ escapeChar c = ['\\', letter]) ∨
      (c.toNat < 0x20 ∧ escapeChar c =
        ['\\', 'u', '0', '0', Nat.digitChar (c.toNat / 16), Nat.digitChar (c.toNat % 16)]) ∨
      (c ≠ '"' ∧ c ≠ '\\' ∧ 0x20 ≤ c.toNat ∧ escapeChar c = [c]) := by
  unfold escapeChar
  split
  · exact Or.inl ⟨'"', rfl, rfl⟩
  · exact Or.inl ⟨'\\', rfl, rfl⟩
  · exact Or.inl ⟨'b', rfl, rfl⟩
  · exact Or.inl ⟨'f', rfl, rfl⟩
  · exact Or.inl ⟨'n', rfl, rfl⟩
  · exact Or.inl ⟨'r', rfl, rfl⟩
  · exact Or.inl ⟨'t', rfl, rfl⟩
  · rename_i hquote hbackslash _ _ _ _ _
    by_cases hcontrol : c.toNat < 0x20
    · exact Or.inr (Or.inl ⟨hcontrol, if_pos hcontrol⟩)
    · exact Or.inr (Or.inr ⟨hquote, hbackslash, Nat.le_of_not_lt hcontrol, if_neg hcontrol⟩)

/-- What is written for a character is read as that character. -/
theorem unescape?_escapeChar (c : Char) (rest : List Char) :
    unescape? (escapeChar c ++ rest) = (unescape? rest).map (c :: ·) := by
  obtain ⟨letter, hletter, hc⟩ | ⟨hcontrol, hc⟩ | ⟨_, hbackslash, _, hc⟩ := escapeChar_cases c
  · rw [hc]
    exact unescape?_short hletter rest
  · have hhigh : isHighSurrogate c.toNat = false := by
      simp only [isHighSurrogate, Bool.and_eq_false_iff, decide_eq_false_iff_not]
      omega
    have hlow : isLowSurrogate c.toNat = false := by
      simp only [isLowSurrogate, Bool.and_eq_false_iff, decide_eq_false_iff_not]
      omega
    have hunit := unescape?_unit (unit?_control hcontrol) hhigh hlow rest
    rw [Char.ofNat_toNat] at hunit
    rw [hc]
    exact hunit
  · rw [hc]
    exact unescape?_plain hbackslash rest

/-- What is written for a text is read as that text. -/
theorem unescape?_escape (cs : List Char) : unescape? (escape cs) = some cs := by
  induction cs with
  | nil => rfl
  | cons c cs ih =>
    have hcons : escape (c :: cs) = escapeChar c ++ escape cs := List.flatMap_cons
    rw [hcons, unescape?_escapeChar, ih, Option.map_some]

/-- What is written for a text may stand between quotes. -/
theorem stringBody_escape (cs : List Char) : StringBody (escape cs) := by
  induction cs with
  | nil => exact .nil
  | cons c cs ih =>
    have hcons : escape (c :: cs) = escapeChar c ++ escape cs := List.flatMap_cons
    rw [hcons]
    obtain ⟨letter, hletter, hc⟩ | ⟨hcontrol, hc⟩ | ⟨hquote, hbackslash, hplain, hc⟩ :=
      escapeChar_cases c
    · rw [hc]
      exact .short (by rw [hletter, Option.isSome_some]) ih
    · have hdigit {n : Nat} (h : n < 16) : (hexValue? (Nat.digitChar n)).isSome = true := by
        rw [hexValue?_digitChar n h, Option.isSome_some]
      rw [hc]
      exact .unit rfl rfl (hdigit (by omega)) (hdigit (by omega)) ih
    · rw [hc]
      exact .plain hquote hbackslash hplain ih

end Footprint.Json

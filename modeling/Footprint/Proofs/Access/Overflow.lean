import Footprint.Format
import Footprint.Proofs.Access.Units
import Mathlib.Algebra.GroupWithZero.Nat

/-!
# Which accesses overflow

Finding the units of an access takes checked operations, whose failure refuses the access,
and operations without a check: the remainder and the rounding of the start, the quotient
and its last part, the count less one. Strict operations have no result where a word would
wrap, fall below zero or be divided by zero. Done with them everywhere, the computation
still has a result, and the same one, so none of the unchecked operations can go wrong. An
access is refused exactly if its extent or its last unit is no word. Where the pitch is a
power of two, that is an access that ends beyond the words, or one that ends with the last
word and starts within the first pitch.
-/

namespace Footprint

namespace Word

/-- The difference of two words, unless it is below zero. -/
def sub? (a b : UInt64) : Option UInt64 :=
  if b ≤ a then some (a - b) else none

/-- The quotient of two words, unless the divisor is zero. -/
def div? (a b : UInt64) : Option UInt64 :=
  if b = 0 then none else some (a / b)

/-- The remainder of two words, unless the divisor is zero. -/
def mod? (a b : UInt64) : Option UInt64 :=
  if b = 0 then none else some (a % b)

end Word

namespace Grid

/-- The count with a strict operation wherever the count has one without a check: nothing if such
an operation fails, and otherwise what the checked sum leads to. -/
def strictCount? (g : Grid) (start length : UInt64) : Option (Option UInt64) := do
  match Word.add? length (← Word.mod? start g.pitch) with
  | none => return none
  | some extended =>
    let whole ← Word.div? extended g.pitch
    let rest ← Word.mod? extended g.pitch
    let count ← Word.add? whole (if 0 < rest then 1 else 0)
    return some count

variable {g : Grid}

/-- No pitch is zero. -/
theorem pitch_ne_zero (g : Grid) : g.pitch ≠ 0 := by
  intro h
  have hpos := g.toNat_pitch_pos
  rw [h] at hpos
  exact Nat.lt_irrefl 0 hpos

/-- Dividing by a pitch never fails. -/
theorem div?_pitch (g : Grid) (u : UInt64) : Word.div? u g.pitch = some (u / g.pitch) :=
  if_neg g.pitch_ne_zero

/-- The remainder by a pitch never fails. -/
theorem mod?_pitch (g : Grid) (u : UInt64) : Word.mod? u g.pitch = some (u % g.pitch) :=
  if_neg g.pitch_ne_zero

/-- Rounding down never falls below zero. -/
theorem sub?_mod (g : Grid) (u : UInt64) : Word.sub? u (u % g.pitch) = some (g.floor u) := by
  refine if_pos ?_
  rw [UInt64.le_iff_toNat_le, UInt64.toNat_mod]
  exact Nat.mod_le _ _

/-- Counting one more for a remainder never wraps. -/
theorem add?_partial (g : Grid) (e : UInt64) :
    Word.add? (e / g.pitch) (if 0 < e % g.pitch then 1 else 0) =
      some (e / g.pitch + if 0 < e % g.pitch then 1 else 0) := by
  rw [Word.add?_eq_some_iff, g.toNat_div_add_partial, UInt64.toNat_div, g.toNat_partial]
  rfl

/-- The strict count is the count. -/
theorem strictCount?_eq (g : Grid) (start length : UInt64) :
    g.strictCount? start length = some (g.count? start length) := by
  simp only [strictCount?, count?, g.mod?_pitch, g.div?_pitch, Option.bind_eq_bind,
    Option.bind_some]
  cases Word.add? length (start % g.pitch) with
  | none => rfl
  | some e =>
    dsimp only
    rw [g.add?_partial]
    rfl

/-- A pitch that is a power of two divides the number of words. -/
theorem pitch_dvd_size_of_isPowerOfTwo (h : g.pitch.toNat.isPowerOfTwo) :
    g.pitch.toNat ∣ UInt64.size := by
  obtain ⟨k, hk⟩ := h
  have hlt : 2 ^ k < 2 ^ 64 := hk ▸ g.pitch.toNat_lt_size
  rw [hk]
  exact Nat.pow_dvd_pow 2 (Nat.le_of_lt ((Nat.pow_lt_pow_iff_right (by decide)).mp hlt))

end Grid

/-- The pitches of the units of both formats are powers of two. -/
theorem Format.isPowerOfTwo_pitch_unitGrid (format : Format) :
    format.unitGrid.pitch.toNat.isPowerOfTwo := by
  cases format with
  | fiu => exact ⟨3, rfl⟩
  | msr => exact ⟨9, rfl⟩

namespace Access

/-- The units with a strict operation wherever they need one without a check: nothing if such an
operation fails, and otherwise what the checked operations lead to. -/
def strictUnits? (a : Access) (g : Grid) : Option (Except Overflow Stretch) := do
  let first ← Word.sub? a.start (← Word.mod? a.start g.pitch)
  match ← g.strictCount? a.start a.length with
  | none => return .error ⟨a.start, a.length⟩
  | some count =>
    match (Word.mul? (← Word.sub? count 1) g.pitch).bind (Word.add? first) with
    | none => return .error ⟨a.start, a.length⟩
    | some _ => return .ok { next := first, remaining := count, stride := g.pitch }

variable {a : Access} {g : Grid}

/-- The count of an access is not zero, so counting from the unit after the first does not fail. -/
theorem sub?_count {c : UInt64} (h : g.count? a.start a.length = some c) :
    Word.sub? c 1 = some (c - 1) := by
  have hc := (Grid.count?_eq_some_iff.mp h).2
  refine if_pos (UInt64.le_iff_toNat_le.mpr ?_)
  rw [hc]
  exact a.pitchesIn_extent_pos g

/-- The strict units are the units. -/
theorem strictUnits?_eq (a : Access) (g : Grid) : a.strictUnits? g = some (a.units g) := by
  simp only [strictUnits?, units, units?, g.mod?_pitch, g.sub?_mod, g.strictCount?_eq,
    Option.bind_eq_bind, Option.bind_some]
  cases hc : g.count? a.start a.length with
  | none => rfl
  | some c =>
    simp only [sub?_count hc, Option.bind_some]
    cases Word.mul? (c - 1) g.pitch with
    | none => rfl
    | some reach =>
      simp only [Option.bind_some]
      cases Word.add? (g.floor a.start) reach <;> rfl

/-- An access that is not spread is refused with its numbers. -/
theorem units_eq_error_iff : a.units g = .error ⟨a.start, a.length⟩ ↔ ¬∃ s, a.units g = .ok s := by
  cases h : a.units g with
  | ok s => simp only [reduceCtorEq, Except.ok.injEq, exists_eq', not_true_eq_false]
  | error e =>
    rw [eq_of_units_eq_error h]
    simp only [reduceCtorEq, exists_false, not_false_eq_true]

/-- On a power of two, an access is spread exactly if it ends within the words, unless it starts
within the first pitch and ends with the last word. -/
theorem exists_units_iff_of_isPowerOfTwo (h : g.pitch.toNat.isPowerOfTwo) :
    (∃ s, a.units g = .ok s) ↔
      a.start.toNat + a.length.toNat ≤ UInt64.size ∧
        ¬(a.start < g.pitch ∧ a.start.toNat + a.length.toNat = UInt64.size) := by
  rw [exists_units_iff_of_dvd (Grid.pitch_dvd_size_of_isPowerOfTwo h), UInt64.le_iff_toNat_le,
    UInt64.lt_iff_toNat_lt]
  omega

/-- An access is spread exactly if, in the naturals, its extent and its last unit are words, and
is refused with its numbers otherwise; no operation without a check goes wrong on the way. On a
grid whose pitch is a power of two, as the units of both formats have it, that is exactly if the
access ends within the words, with one exception: what starts within the first pitch and ends
with the last word is refused. -/
theorem units_or_overflow (a : Access) (g : Grid) :
    ((∃ s, a.units g = .ok s) ↔
        a.length.toNat + a.start.toNat % g.pitch.toNat < UInt64.size ∧
          g.pitch.toNat * ((a.start.toNat + a.length.toNat - 1) / g.pitch.toNat) <
            UInt64.size) ∧
      (a.units g = .error ⟨a.start, a.length⟩ ↔ ¬∃ s, a.units g = .ok s) ∧
      a.strictUnits? g = some (a.units g) ∧
      (g.pitch.toNat.isPowerOfTwo →
        ((∃ s, a.units g = .ok s) ↔
          a.start.toNat + a.length.toNat ≤ UInt64.size ∧
            ¬(a.start < g.pitch ∧ a.start.toNat + a.length.toNat = UInt64.size))) ∧
      ∀ format : Format, format.unitGrid.pitch.toNat.isPowerOfTwo := by
  refine ⟨?_, units_eq_error_iff, a.strictUnits?_eq g, exists_units_iff_of_isPowerOfTwo,
    Format.isPowerOfTwo_pitch_unitGrid⟩
  rw [← Grid.below_eq_mul_div]
  exact exists_units_iff

/-- Two sectors at the end of the words, and all sectors but the first two. -/
theorem units_or_overflow_of_last_word :
    let g := Format.fiu.unitGrid
    let last : Access := ⟨18446744073709551614, 2, by decide⟩
    let most : Access := ⟨2, 18446744073709551614, by decide⟩
    (∃ s, last.units g = .ok s) ∧ most.units g = .error ⟨2, 18446744073709551614⟩ := by
  intro g last most
  obtain ⟨_, _, _, hlast, hformats⟩ := units_or_overflow last g
  obtain ⟨_, hrefused, _, hmost, _⟩ := units_or_overflow most g
  have hpitch : g.pitch.toNat.isPowerOfTwo := hformats .fiu
  refine ⟨(hlast hpitch).mpr ⟨by decide +kernel, by decide +kernel⟩, hrefused.mpr ?_⟩
  rw [hmost hpitch]
  decide +kernel

end Access

end Footprint

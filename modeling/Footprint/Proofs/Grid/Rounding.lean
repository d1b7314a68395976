import Footprint.Grid

/-!
# Rounding on the natural numbers

The addresses of an access may lie beyond the words, so rounding down is also
stated for natural numbers, where it has no limits. On words the two agree. A
point below an address is known from three facts: it is a multiple of the pitch,
it is not above the address, and the address is less than one pitch away.
-/

namespace Footprint.Grid

/-- The greatest grid point that is not above a natural number. -/
def below (g : Grid) (n : Nat) : Nat := n - n % g.pitch.toNat

/-- Rounding a word is rounding the number it holds. -/
theorem toNat_floor_eq_below (g : Grid) (u : UInt64) : (g.floor u).toNat = g.below u.toNat :=
  g.toNat_floor u

/-- The point below a number is the pitch times the quotient. -/
theorem below_eq_mul_div (g : Grid) (n : Nat) :
    g.below n = g.pitch.toNat * (n / g.pitch.toNat) := by
  have h := Nat.div_add_mod n g.pitch.toNat
  unfold below
  omega

/-- Rounding down never goes up. -/
theorem below_le (g : Grid) (n : Nat) : g.below n ≤ n := Nat.sub_le _ _

/-- Every number lies less than one pitch above its grid point. -/
theorem lt_below_add_pitch (g : Grid) (n : Nat) : n < g.below n + g.pitch.toNat := by
  have h := Nat.mod_lt n g.toNat_pitch_pos
  have hle := Nat.mod_le n g.pitch.toNat
  unfold below
  omega

/-- Rounding down gives a grid point. -/
theorem pitch_dvd_below (g : Grid) (n : Nat) : g.pitch.toNat ∣ g.below n := by
  rw [below_eq_mul_div]
  exact Nat.dvd_mul_right _ _

/-- The grid point less than one pitch below a number is the only one. -/
theorem below_eq_iff {g : Grid} {n m : Nat} :
    g.below n = m ↔ g.pitch.toNat ∣ m ∧ m ≤ n ∧ n < m + g.pitch.toNat := by
  constructor
  · rintro rfl
    exact ⟨g.pitch_dvd_below n, g.below_le n, g.lt_below_add_pitch n⟩
  · rintro ⟨⟨k, rfl⟩, hle, hlt⟩
    have hk : n / g.pitch.toNat = k := by
      apply Nat.div_eq_of_lt_le
      · rwa [Nat.mul_comm]
      · rwa [Nat.add_mul, Nat.one_mul, Nat.mul_comm k]
    rw [below_eq_mul_div, hk]

/-- A grid point is not above the point below a number exactly if it is not above the number. -/
theorem le_below_iff {g : Grid} {m n : Nat} (hm : g.pitch.toNat ∣ m) : m ≤ g.below n ↔ m ≤ n := by
  constructor
  · intro h
    exact Nat.le_trans h (g.below_le n)
  · intro h
    obtain ⟨k, rfl⟩ := hm
    rw [below_eq_mul_div]
    apply Nat.mul_le_mul_left
    rwa [Nat.le_div_iff_mul_le g.toNat_pitch_pos, Nat.mul_comm]

/-- Rounding to a finer grid first does not move the point of the coarser grid. -/
theorem below_below {fine coarse : Grid} (h : fine.pitch.toNat ∣ coarse.pitch.toNat) (n : Nat) :
    coarse.below (fine.below n) = coarse.below n := by
  have hdvd := coarse.pitch_dvd_below n
  rw [below_eq_iff]
  refine ⟨hdvd, ?_, Nat.lt_of_le_of_lt (fine.below_le n) (coarse.lt_below_add_pitch n)⟩
  rw [le_below_iff (Nat.dvd_trans h hdvd)]
  exact coarse.below_le n

/-- Rounding down keeps the order. -/
theorem below_mono {g : Grid} {m n : Nat} (h : m ≤ n) : g.below m ≤ g.below n := by
  rw [le_below_iff (g.pitch_dvd_below m)]
  exact Nat.le_trans (g.below_le m) h

/-- Rounding down leaves a number where it is exactly if it is a grid point. -/
theorem below_eq_self_iff {g : Grid} {n : Nat} : g.below n = n ↔ g.pitch.toNat ∣ n := by
  constructor
  · intro h
    rw [← h]
    exact g.pitch_dvd_below n
  · intro h
    exact below_eq_iff.mpr ⟨h, Nat.le_refl n, Nat.lt_add_of_pos_right g.toNat_pitch_pos⟩

/-- Two numbers have the same point below them exactly if they hold as many whole pitches. -/
theorem below_eq_below_iff {g : Grid} {m n : Nat} :
    g.below m = g.below n ↔ m / g.pitch.toNat = n / g.pitch.toNat := by
  rw [below_eq_mul_div, below_eq_mul_div, Nat.mul_left_cancel_iff g.toNat_pitch_pos]

/-- If rounding to one grid and then to another does not move the pitch of the other, then the first
pitch divides it. -/
theorem dvd_of_below_below_pitch {fine coarse : Grid}
    (h : coarse.below (fine.below coarse.pitch.toNat) = coarse.pitch.toNat) :
    fine.pitch.toNat ∣ coarse.pitch.toNat := by
  have hle := coarse.below_le (fine.below coarse.pitch.toNat)
  rw [h] at hle
  exact below_eq_self_iff.mp (Nat.le_antisymm (fine.below_le _) hle)

end Footprint.Grid

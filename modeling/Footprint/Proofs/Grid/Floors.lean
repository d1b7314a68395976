import Footprint.Proofs.Grid.Rounding
import Mathlib.Order.Bounds.Defs

/-!
# Floors of words

The floor of a word is the greatest grid point that is not above it. Words with the same floor are
those that hold as many whole pitches, so the floors cut the words into runs of one pitch each.
Two grids can be used one after the other. The second alone gives the same floors exactly if the
pitch of the first divides its own: otherwise the pitch of the second grid is a word on that grid
which the first grid moves below it.
-/

namespace Footprint.Grid

/-- The floor is the greatest multiple of the pitch that is not above the word. -/
theorem isGreatest_floor (g : Grid) (u : UInt64) :
    IsGreatest {m | g.pitch.toNat ∣ m ∧ m ≤ u.toNat} (g.floor u).toNat := by
  rw [toNat_floor_eq_below]
  constructor
  · exact ⟨g.pitch_dvd_below _, g.below_le _⟩
  · rintro m ⟨hdvd, hle⟩
    exact (le_below_iff hdvd).mpr hle

/-- Floors keep the order of the words. -/
theorem floor_mono {g : Grid} {u v : UInt64} (h : u ≤ v) : g.floor u ≤ g.floor v := by
  rw [UInt64.le_iff_toNat_le, toNat_floor_eq_below, toNat_floor_eq_below]
  exact below_mono (UInt64.le_iff_toNat_le.mp h)

/-- Two words have the same floor exactly if they hold as many whole pitches. -/
theorem floor_eq_floor_iff {g : Grid} {u v : UInt64} :
    g.floor u = g.floor v ↔ u.toNat / g.pitch.toNat = v.toNat / g.pitch.toNat := by
  rw [← UInt64.toNat_inj, toNat_floor_eq_below, toNat_floor_eq_below, below_eq_below_iff]

/-- The floor of a floor on a finer grid is the floor of the word. -/
theorem floor_floor_of_dvd {fine coarse : Grid} (h : fine.pitch.toNat ∣ coarse.pitch.toNat)
    (u : UInt64) : coarse.floor (fine.floor u) = coarse.floor u := by
  rw [← UInt64.toNat_inj, toNat_floor_eq_below, toNat_floor_eq_below, toNat_floor_eq_below,
    below_below h]

/-- The pitch of a grid is its own floor. -/
theorem floor_pitch (g : Grid) : g.floor g.pitch = g.pitch := by
  rw [← UInt64.toNat_inj, toNat_floor_eq_below]
  exact below_eq_self_iff.mpr (Nat.dvd_refl _)

/-- If floors on a grid are the same when they are taken through a first grid, then the first pitch
divides its own: it is enough that its own pitch, as a word, stays where it is. -/
theorem dvd_of_floor_floor {fine coarse : Grid}
    (h : ∀ u, coarse.floor (fine.floor u) = coarse.floor u) :
    fine.pitch.toNat ∣ coarse.pitch.toNat := by
  have hpitch := congrArg UInt64.toNat (h coarse.pitch)
  rw [floor_pitch, toNat_floor_eq_below, toNat_floor_eq_below] at hpitch
  exact dvd_of_below_below_pitch hpitch

/-- The floor is the greatest multiple of the pitch that is not above the word. It keeps the order,
is its own floor, and is shared by the words that hold as many whole pitches. A floor on a second
grid is the same whether or not it is taken through the first, for all words, exactly if the first
pitch divides the second. -/
theorem floor_exact (g : Grid) :
    (∀ u, IsGreatest {m | g.pitch.toNat ∣ m ∧ m ≤ u.toNat} (g.floor u).toNat) ∧
      (∀ u v, u ≤ v → g.floor u ≤ g.floor v) ∧
      (∀ u, g.floor (g.floor u) = g.floor u) ∧
      (∀ u v, g.floor u = g.floor v ↔ u.toNat / g.pitch.toNat = v.toNat / g.pitch.toNat) ∧
      ∀ second : Grid, (∀ u, second.floor (g.floor u) = second.floor u) ↔
        g.pitch.toNat ∣ second.pitch.toNat := by
  refine ⟨g.isGreatest_floor, fun _ _ => floor_mono, floor_floor_of_dvd (Nat.dvd_refl _),
    fun _ _ => floor_eq_floor_iff, ?_⟩
  intro second
  exact ⟨dvd_of_floor_floor, floor_floor_of_dvd⟩

/-- Of the two greatest pitches neither divides the other, and only the last word shows it. -/
theorem floor_exact_of_greatest_pitches :
    let first : Grid := ⟨18446744073709551614, by decide⟩
    let second : Grid := ⟨18446744073709551615, by decide⟩
    (18446744073709551614 : UInt64) ≤ 18446744073709551615 ∧
      first.floor 18446744073709551614 ≤ first.floor 18446744073709551615 ∧
      ¬∀ u, second.floor (first.floor u) = second.floor u := by
  intro first second
  obtain ⟨_, hmono, _, _, hsecond⟩ := floor_exact first
  have hle : (18446744073709551614 : UInt64) ≤ 18446744073709551615 := by decide
  have hdvd : ¬first.pitch.toNat ∣ second.pitch.toNat := by decide
  exact ⟨hle, hmono _ _ hle, mt (hsecond second).mp hdvd⟩

end Footprint.Grid

import Footprint.Proofs.Measurement.Lines

/-!
# The two modes of a measurement

The mode decides under which numbers units are seen and nothing else: where the
reading stops, what went wrong and what is counted depend on the unit grid alone.
So both modes account for the same accesses, the coarse set is the exact set
rounded down to blocks, and one footprint bounds the other both ways.
-/

namespace Footprint

/-- The units that lie in one cache block. -/
def Format.unitsPerBlock (format : Format) : Nat :=
  format.blockGrid.pitch.toNat / format.unitGrid.pitch.toNat

/-- The pitch of the blocks is a multiple of the pitch of the units. -/
theorem Format.pitch_blockGrid (format : Format) :
    format.blockGrid.pitch.toNat = format.unitsPerBlock * format.unitGrid.pitch.toNat := by
  cases format <;> rfl

namespace Measurement

/-- Whatever the content is, both modes end with the same fault and the same counters, and the
coarse set holds the blocks of the units in the exact set. So the coarse footprint is at most
the exact one, the exact one at most the coarse one times the units in a block, and both are
zero together. -/
theorem modes_agree (format : Format) (hours : Option UInt64) (content : Content) :
    let exact := run format .exact hours content
    let coarse := run format .dmCache hours content
    exact.fault = coarse.fault ∧
      exact.stats = coarse.stats ∧
      exact.tally.accesses = coarse.tally.accesses ∧
      exact.tally.touched = coarse.tally.touched ∧
      (∀ v, coarse.tally.seen.contains v = true ↔
        ∃ u, exact.tally.seen.contains u = true ∧ format.blockGrid.floor u = v) ∧
      coarse.totals.footprint.toNat ≤ exact.totals.footprint.toNat ∧
      exact.totals.footprint.toNat ≤ format.unitsPerBlock * coarse.totals.footprint.toNat ∧
      (format.unitsPerBlock = match format with | .fiu => 16 | .msr => 128) ∧
      (exact.totals.footprint = 0 ↔ coarse.totals.footprint = 0) := by
  intro exact coarse
  obtain ⟨hfault, hstats, hunits, hblocks, haccount⟩ := run_eq format .exact hours content
  obtain ⟨hfault', hstats', hunits', hblocks', haccount'⟩ := run_eq format .dmCache hours content
  have hsame : coarse.tally.units = exact.tally.units := hunits'.trans hunits.symm
  have hexact := toNat_footprint_run format .exact hours content
  have hcoarse := toNat_footprint_run format .dmCache hours content
  obtain ⟨haccesses, htouched⟩ := haccount'.accesses_and_touched_eq haccount hsame.symm
  have hle : coarse.totals.footprint.toNat ≤ exact.totals.footprint.toNat := by
    rw [hcoarse, hexact]
    exact Tally.card_marks_some_le _ _ _
  have hge : exact.totals.footprint.toNat ≤
      format.unitsPerBlock * coarse.totals.footprint.toNat := by
    rw [hcoarse, hexact]
    exact Tally.card_marks_none_le format.pitch_blockGrid _
  refine ⟨hfault.trans hfault'.symm, hstats.trans hstats'.symm, haccesses, htouched, ?_,
    hle, hge, ?_, ?_⟩
  · intro v
    exact haccount.contains_coarse_iff haccount' hsame hblocks hblocks'
  · cases format <;> rfl
  · rw [← UInt64.toNat_inj, ← UInt64.toNat_inj, UInt64.toNat_zero]
    constructor
    · intro h
      omega
    · intro h
      rw [h, Nat.mul_zero] at hge
      exact Nat.le_zero.mp hge

end Measurement

end Footprint

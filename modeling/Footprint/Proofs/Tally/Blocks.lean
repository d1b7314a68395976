import Footprint.Proofs.Tally.History

/-!
# Measuring blocks through units or at once

A tally that coarsens spreads an access over units and rounds each of them down to its
block. A tally whose units are the blocks spreads the access over the blocks at once.
Where the units divide the blocks, both see the same blocks, because rounding twice is
rounding once. They do not refuse the same accesses: measured from the block below its
start, an access can be longer than any word, and still not be so from the unit below it.
-/

namespace Footprint

/-- An access that is spread over a grid is spread over every finer one. -/
theorem Access.exists_units_of_finer {a : Access} {fine coarse : Grid}
    (hfine : fine.pitch.toNat ∣ coarse.pitch.toNat) (hcoarse : coarse.pitch.toNat ∣ UInt64.size)
    (h : ∃ s, a.units coarse = .ok s) : ∃ s, a.units fine = .ok s := by
  rw [exists_units_iff_of_dvd hcoarse] at h
  rw [exists_units_iff_of_dvd (Nat.dvd_trans hfine hcoarse)]
  rcases h with hlt | ⟨heq, hle⟩
  · exact Or.inl hlt
  · have hpitch : fine.pitch ≤ coarse.pitch :=
      UInt64.le_iff_toNat_le.mpr (Nat.le_of_dvd coarse.toNat_pitch_pos hfine)
    exact Or.inr ⟨heq, UInt64.le_trans hpitch hle⟩

namespace Tally

/-- A call is answered without a refusal exactly if its access can be spread. -/
theorem taken_eq_filter (t : Tally) (calls : List Access) :
    t.taken calls = calls.filter fun a => (a.units t.units).isOk := by
  induction calls generalizing t with
  | nil => rfl
  | cons a rest ih =>
    cases h : a.units t.units with
    | ok s =>
      rw [taken_cons_of_ok h, ih, List.filter_cons_of_pos (by rw [h]; rfl)]
      rfl
    | error e =>
      rw [taken_cons_of_error h, ih, List.filter_cons_of_neg (by rw [h]; exact Bool.false_ne_true)]

/-- No call is refused exactly if every access can be spread. -/
theorem taken_eq_self_iff {t : Tally} {calls : List Access} :
    t.taken calls = calls ↔ ∀ a ∈ calls, ∃ s, a.units t.units = .ok s := by
  have hok (a : Access) : (a.units t.units).isOk = true ↔ ∃ s, a.units t.units = .ok s := by
    cases a.units t.units with
    | ok s => exact iff_of_true rfl ⟨s, rfl⟩
    | error e => exact iff_of_false Bool.false_ne_true fun ⟨_, h⟩ => nomatch h
  simp only [taken_eq_filter, List.filter_eq_self, hok]

/-- Where the units divide the blocks, the block of an address is that of its unit. -/
theorem mark_some_eq {units blocks : Grid} (h : units.pitch.toNat ∣ blocks.pitch.toNat) :
    mark units (some blocks) = mark blocks none := by
  funext n
  exact Grid.below_below h n

/-- If no access is refused when it is spread over the blocks at once, then none is refused when
it is spread over units that divide the blocks, and both ways see the same blocks. -/
theorem seen_through_units {units blocks : Grid}
    (hunits : units.pitch.toNat ∣ blocks.pitch.toNat) (hblocks : blocks.pitch.toNat ∣ UInt64.size)
    {calls : List Access} (h : (onGrids blocks none).taken calls = calls) :
    (onGrids units (some blocks)).taken calls = calls ∧
      ((onGrids units (some blocks)).attemptAll calls).seen.elements =
        ((onGrids blocks none).attemptAll calls).seen.elements := by
  have hall : (onGrids units (some blocks)).taken calls = calls := by
    rw [taken_eq_self_iff] at h ⊢
    intro a ha
    exact Access.exists_units_of_finer hunits hblocks (h a ha)
  have hdirect := (accountsFor_onGrids blocks none).attemptAll calls
  have hthrough := (accountsFor_onGrids units (some blocks)).attemptAll calls
  rw [h] at hdirect
  rw [hall] at hthrough
  refine ⟨hall, ?_⟩
  -- both account for the same accesses, so only the marks are left to compare
  ext u
  rw [WorkingSet.mem_elements, WorkingSet.mem_elements, hthrough.seen, hdirect.seen,
    units_attemptAll, units_attemptAll, blocks_attemptAll, blocks_attemptAll]
  simp only [onGrids, mark_some_eq hunits]

/-- If a tally whose units are the cache blocks of a format refuses none of the accesses, then
neither does the coarsening tally of the format, and both end with the same set: spreading over
units and rounding each to its block neither loses nor adds a block. -/
theorem dmCache_sees_blocks (format : Format) (calls : List Access)
    (h : (onGrids format.blockGrid none).taken calls = calls) :
    (start format .dmCache).taken calls = calls ∧
      (∀ u, ((start format .dmCache).attemptAll calls).seen.contains u =
        ((onGrids format.blockGrid none).attemptAll calls).seen.contains u) ∧
      ((start format .dmCache).attemptAll calls).seen.size =
        ((onGrids format.blockGrid none).attemptAll calls).seen.size := by
  have hunits : format.unitGrid.pitch.toNat ∣ format.blockGrid.pitch.toNat := by
    cases format <;> decide
  have hblocks : format.blockGrid.pitch.toNat ∣ UInt64.size := by cases format <;> decide
  obtain ⟨hall, hseen⟩ := seen_through_units hunits hblocks h
  refine ⟨hall, ?_, ?_⟩
  · intro u
    rw [Bool.eq_iff_iff, ← WorkingSet.mem_elements, ← WorkingSet.mem_elements]
    exact Finset.ext_iff.mp hseen u
  · rw [← WorkingSet.card_elements, ← WorkingSet.card_elements]
    exact congrArg Finset.card hseen

/-- Three accesses on sectors; the second crosses a block, the third ends with the last word. -/
theorem dmCache_sees_blocks_of_three_calls :
    let calls : List Access := [⟨3, 1, by decide⟩, ⟨120, 16, by decide⟩,
      ⟨18446744073709551607, 9, by decide⟩]
    (onGrids Format.fiu.blockGrid none).taken calls = calls ∧
      (start .fiu .dmCache).taken calls = calls ∧
      ((start .fiu .dmCache).attemptAll calls).seen.size =
        ((onGrids Format.fiu.blockGrid none).attemptAll calls).seen.size := by
  intro calls
  have h : (onGrids Format.fiu.blockGrid none).taken calls = calls := by decide +kernel
  obtain ⟨hall, _, hsize⟩ := dmCache_sees_blocks .fiu calls h
  exact ⟨h, hall, hsize⟩

/- The implication has no converse: the extent is a word only when it is measured from the unit. -/
example :
    let a : Access := ⟨8, 18446744073709551608, by decide⟩
    (a.units Format.fiu.unitGrid).isOk = true ∧ (a.units Format.fiu.blockGrid).isOk = false := by
  decide +kernel

end Tally

end Footprint

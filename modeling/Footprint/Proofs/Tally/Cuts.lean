import Footprint.Proofs.Access.Cuts
import Footprint.Proofs.Tally.History

/-!
# Cutting an access changes nothing that is seen

Whatever a tally has seen before, after some calls it has seen that and what the accesses of the
calls show. An access that is cut in two shows what its parts show, so it may be replaced by them
anywhere among the calls, on any grids. The parts are counted as two accesses, and the unit that
holds the cut as two units, so only the counters tell the difference.
-/

namespace Footprint.Tally

/-- A call for the access makes the unit seen, as it is or as the block of another. -/
def Shows (units : Grid) (blocks : Option Grid) (a : Access) (u : UInt64) : Prop :=
  (∃ s, a.units units = .ok s) ∧ ∃ n, a.Touches n ∧ mark units blocks n = u.toNat

/-- After any calls, what had been seen before has been seen, and what the calls show. -/
theorem contains_attemptAll_iff {t : Tally} {calls : List Access} {u : UInt64} :
    (t.attemptAll calls).seen.contains u = true ↔
      t.seen.contains u = true ∨ ∃ a ∈ calls, Shows t.units t.blocks a u := by
  induction calls generalizing t with
  | nil =>
    simp only [attemptAll, List.foldl_nil, List.not_mem_nil, false_and, exists_false, or_false]
  | cons a rest ih =>
    rw [attemptAll_cons, ih, units_attempt, blocks_attempt, List.exists_mem_cons_iff, ← or_assoc]
    apply or_congr_left
    cases h : a.units t.units with
    | ok s =>
      have hshows : Shows t.units t.blocks a u ↔
          ∃ n, a.Touches n ∧ mark t.units t.blocks n = u.toNat := and_iff_right ⟨s, h⟩
      rw [attempt_of_ok h, contains_take_iff h, hshows]
    | error e =>
      have hshows : ¬Shows t.units t.blocks a u := by
        rintro ⟨⟨s, hs⟩, _⟩
        rw [h] at hs
        cases hs
      rw [attempt_of_error h, or_iff_left hshows]

/-- An access that can be taken shows what its parts show. -/
theorem shows_cut_iff {whole front back : Access} (hcut : whole.CutInto front back)
    {units : Grid} (hwhole : ∃ s, whole.units units = .ok s) {blocks : Option Grid} {u : UInt64} :
    Shows units blocks whole u ↔ Shows units blocks front u ∨ Shows units blocks back u := by
  obtain ⟨hfront, hback⟩ := hcut.exists_units hwhole
  simp only [Shows, hwhole, hfront, hback, true_and, hcut.touches_iff, or_and_right, exists_or]

/-- Among any calls, one that is not refused can be replaced by calls for the parts. -/
theorem elements_attemptAll_cut {whole front back : Access} (hcut : whole.CutInto front back)
    {t : Tally} (hwhole : ∃ s, whole.units t.units = .ok s) (before after : List Access) :
    (t.attemptAll (before ++ front :: back :: after)).seen.elements =
      (t.attemptAll (before ++ whole :: after)).seen.elements := by
  ext u
  simp only [WorkingSet.mem_elements, contains_attemptAll_iff, List.mem_append, List.mem_cons,
    or_and_right, exists_or, exists_eq_left, shows_cut_iff hcut hwhole, or_assoc]

/-- If an access that is cut in two can be spread, so can both parts, and the units of the whole are
those of the parts. The counts of the parts add up to that of the whole, and to one more if the cut
is not on the grid. Whatever a tally on that grid has seen, whether it coarsens or not, and whatever
calls come before and after, it ends with the same set for the whole as for the parts. -/
theorem cut_unseen {whole front back : Access} (hcut : whole.CutInto front back) {g : Grid}
    {s : Stretch} (h : whole.units g = .ok s) :
    (∃ s₁ s₂, front.units g = .ok s₁ ∧ back.units g = .ok s₂ ∧
        ∀ u, u ∈ s.toList ↔ u ∈ s₁.toList ∨ u ∈ s₂.toList) ∧
      (∃ c c₁ c₂, g.count? whole.start whole.length = some c ∧
        g.count? front.start front.length = some c₁ ∧
        g.count? back.start back.length = some c₂ ∧
        c₁.toNat + c₂.toNat = c.toNat + if g.pitch.toNat ∣ back.start.toNat then 0 else 1) ∧
      ∀ t : Tally, t.units = g → ∀ before after,
        (∀ u, (t.attemptAll (before ++ front :: back :: after)).seen.contains u =
          (t.attemptAll (before ++ whole :: after)).seen.contains u) ∧
        (t.attemptAll (before ++ front :: back :: after)).seen.size =
          (t.attemptAll (before ++ whole :: after)).seen.size := by
  obtain ⟨s₁, s₂, h₁, h₂, hmem, hsum⟩ := hcut.exists_parts h
  refine ⟨⟨s₁, s₂, h₁, h₂, hmem⟩, ⟨_, _, _, Access.count?_of_units h, Access.count?_of_units h₁,
    Access.count?_of_units h₂, hsum⟩, ?_⟩
  rintro t rfl before after
  exact WorkingSet.contains_and_size_eq (elements_attemptAll_cut hcut ⟨s, h⟩ before after)

/-- An access over three units, the last of which is the greatest that is a word, cut inside the
second one. -/
theorem cut_unseen_of_last_unit :
    let units : Grid := ⟨6, by decide⟩
    let blocks : Grid := ⟨12, by decide⟩
    let whole : Access := ⟨18446744073709551603, 15, by decide⟩
    let front : Access := ⟨18446744073709551603, 8, by decide⟩
    let back : Access := ⟨18446744073709551611, 7, by decide⟩
    whole.CutInto front back ∧ (∃ s, whole.units units = .ok s) ∧
      (∃ c c₁ c₂, units.count? whole.start whole.length = some c ∧
        units.count? front.start front.length = some c₁ ∧
        units.count? back.start back.length = some c₂ ∧
        c₁.toNat + c₂.toNat = c.toNat + 1) ∧
      ((onGrids units (some blocks)).attemptAll [front, back]).seen.size =
        ((onGrids units (some blocks)).attemptAll [whole]).seen.size := by
  intro units blocks whole front back
  have hcut : whole.CutInto front back := ⟨rfl, by decide +kernel, by decide +kernel⟩
  have h : whole.units units = .ok ⟨18446744073709551600, 3, 6⟩ := by decide +kernel
  obtain ⟨_, ⟨c, c₁, c₂, hc, hc₁, hc₂, hsum⟩, hseen⟩ := cut_unseen hcut h
  rw [if_neg (by decide +kernel)] at hsum
  exact ⟨hcut, ⟨_, h⟩, ⟨c, c₁, c₂, hc, hc₁, hc₂, hsum⟩,
    (hseen (onGrids units (some blocks)) rfl [] []).2⟩

end Footprint.Tally

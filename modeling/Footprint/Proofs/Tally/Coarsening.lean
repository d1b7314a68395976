import Footprint.Proofs.Tally.Marks
import Mathlib.Algebra.Order.BigOperators.Group.Finset

/-!
# Coarsening merges marks

The blocks that accesses touch are the blocks of the units that they touch, so there
are never more blocks than units. If the pitch of the blocks is a multiple of the
pitch of the units, a block holds that many grid points, and every touched block
accounts for at most so many units. Units more than one address apart are fewer
than the words, whatever the accesses are.
-/

namespace Footprint

/-- Between a block point and the next one lie no more unit points than the block has units. -/
theorem Grid.card_filter_below_le {units blocks : Grid} {k : Nat}
    (hk : blocks.pitch.toNat = k * units.pitch.toNat) {points : Finset Nat}
    (hpoints : ∀ m ∈ points, units.pitch.toNat ∣ m) (b : Nat) :
    (points.filter fun m => blocks.below m = b).card ≤ k := by
  have hsubset : (points.filter fun m => blocks.below m = b) ⊆
      (Finset.range k).image fun i => b + units.pitch.toNat * i := by
    intro m hm
    obtain ⟨hmem, hb⟩ := Finset.mem_filter.mp hm
    obtain ⟨hdvd, hle, hlt⟩ := Grid.below_eq_iff.mp hb
    have hunit : units.pitch.toNat ∣ b := Nat.dvd_trans ⟨k, by rw [hk, Nat.mul_comm]⟩ hdvd
    obtain ⟨i, hi⟩ := (Nat.dvd_sub (hpoints m hmem) hunit : units.pitch.toNat ∣ m - b)
    have hm' : b + units.pitch.toNat * i = m := by omega
    rw [hk, ← hm', Nat.mul_comm k] at hlt
    refine Finset.mem_image.mpr ⟨i, Finset.mem_range.mpr ?_, hm'⟩
    exact Nat.lt_of_mul_lt_mul_left (Nat.lt_of_add_lt_add_left hlt)
  have hcard := Finset.card_le_card hsubset
  have himage := Finset.card_image_le (s := Finset.range k)
    (f := fun i => b + units.pitch.toNat * i)
  rw [Finset.card_range] at himage
  exact Nat.le_trans hcard himage

namespace Tally

/-- The touched blocks are the blocks of the touched units. -/
theorem marks_some_eq_image (units g : Grid) (as : List Access) :
    marks units (some g) as = (marks units none as).image g.below := by
  simp only [marks, Finset.biUnion_image, Finset.image_image]
  rfl

/-- The touched units are grid points. -/
theorem pitch_dvd_of_mem_marks {units : Grid} {as : List Access} {m : Nat}
    (h : m ∈ marks units none as) : units.pitch.toNat ∣ m := by
  obtain ⟨a, _, n, _, rfl⟩ := mem_marks.mp h
  exact units.pitch_dvd_below n

/-- There are no more blocks than units. -/
theorem card_marks_some_le (units g : Grid) (as : List Access) :
    (marks units (some g) as).card ≤ (marks units none as).card := by
  rw [marks_some_eq_image]
  exact Finset.card_image_le

/-- There are no more units than fit into the blocks. -/
theorem card_marks_none_le {units g : Grid} {k : Nat}
    (hk : g.pitch.toNat = k * units.pitch.toNat) (as : List Access) :
    (marks units none as).card ≤ k * (marks units (some g) as).card := by
  rw [marks_some_eq_image]
  apply Finset.card_le_mul_card_image
  intro b _
  exact Grid.card_filter_below_le hk (fun _ => pitch_dvd_of_mem_marks) b

/-- Units that are more than one address apart are fewer than the words. -/
theorem card_marks_lt_size {units : Grid} {as : List Access}
    (h : ∀ a ∈ as, ∃ s, a.units units = .ok s) (hpitch : 2 ≤ units.pitch.toNat)
    (blocks : Option Grid) : (marks units blocks as).card < UInt64.size := by
  have hnone : (marks units none as).card < UInt64.size := by
    have hsubset : marks units none as ⊆
        (Finset.range (UInt64.size / 2)).image (units.pitch.toNat * ·) := by
      intro m hm
      obtain ⟨i, rfl⟩ := pitch_dvd_of_mem_marks hm
      obtain ⟨a, ha, n, hn, he⟩ := mem_marks.mp hm
      obtain ⟨s, hs⟩ := h a ha
      have hlt : units.pitch.toNat * i < UInt64.size :=
        he ▸ Access.below_lt_size_of_units hs hn
      have hdouble := Nat.mul_le_mul_right i hpitch
      have hsize : 2 * (UInt64.size / 2) = UInt64.size := rfl
      refine Finset.mem_image.mpr ⟨i, Finset.mem_range.mpr ?_, rfl⟩
      omega
    have hcard := Finset.card_le_card hsubset
    have himage := Finset.card_image_le (s := Finset.range (UInt64.size / 2))
      (f := (units.pitch.toNat * ·))
    rw [Finset.card_range] at himage
    exact Nat.lt_of_le_of_lt (Nat.le_trans hcard himage) (by decide)
  cases blocks with
  | none => exact hnone
  | some g => exact Nat.lt_of_le_of_lt (card_marks_some_le units g as) hnone

namespace AccountsFor

variable {t : Tally} {as : List Access}

/-- The footprint of units that are more than one address apart is exact. -/
theorem toNat_footprint (h : t.AccountsFor as) (hpitch : 2 ≤ t.units.pitch.toNat) :
    t.totals.footprint.toNat = (marks t.units t.blocks as).card := by
  rw [totals, h.size_eq, UInt64.toNat_ofNat_of_lt' (card_marks_lt_size h.spread hpitch _)]

/-- Two tallies that account for the same accesses count the same. -/
theorem accesses_and_touched_eq {t' : Tally} (h : t.AccountsFor as) (h' : t'.AccountsFor as)
    (hunits : t'.units = t.units) : t'.accesses = t.accesses ∧ t'.touched = t.touched := by
  rw [h.accesses, h'.accesses, h.touched, h'.touched, hunits]
  exact ⟨rfl, rfl⟩

/-- Of two tallies that account for the same accesses, the one that coarsens has seen the
blocks of the units that the other has seen. -/
theorem contains_coarse_iff {fine coarse : Tally} {g : Grid} (hfine : fine.AccountsFor as)
    (hcoarse : coarse.AccountsFor as) (hunits : coarse.units = fine.units)
    (hnone : fine.blocks = none) (hsome : coarse.blocks = some g) {v : UInt64} :
    coarse.seen.contains v = true ↔
      ∃ u, fine.seen.contains u = true ∧ g.floor u = v := by
  simp only [hcoarse.seen, hfine.seen, hunits, hnone, hsome, mark]
  constructor
  · rintro ⟨a, ha, n, hn, he⟩
    obtain ⟨s, hs⟩ := hfine.spread a ha
    have hu := UInt64.toNat_ofNat_of_lt' (Access.below_lt_size_of_units hs hn)
    refine ⟨.ofNat (fine.units.below n), ⟨a, ha, n, hn, hu.symm⟩, ?_⟩
    rw [← UInt64.toNat_inj, g.toNat_floor_eq_below, hu, he]
  · rintro ⟨u, ⟨a, ha, n, hn, he⟩, rfl⟩
    exact ⟨a, ha, n, hn, by rw [he, g.toNat_floor_eq_below]⟩

end AccountsFor

end Tally

end Footprint

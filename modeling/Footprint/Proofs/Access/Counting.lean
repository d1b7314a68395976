import Footprint.Format
import Footprint.Proofs.Access.Units

/-!
# Counting the units of any request

The count asks for the numbers of a request and not whether the request is an access. For an
access it is the number of units touched. A request of length zero touches nothing, but its
extent is what lies between its start and the grid point below, and a pitch begun there is
counted like any other. So the count is one too many exactly for an empty request that does not
start on the grid.
-/

namespace Footprint.Grid

/-- The number of units touched by a request, address by address in the naturals. -/
def touched (g : Grid) (start length : UInt64) : Nat :=
  ((Finset.Ico start.toNat (start.toNat + length.toNat)).image g.below).card

/-- An empty request touches nothing. -/
theorem touched_zero (g : Grid) (start : UInt64) : g.touched start 0 = 0 := by
  rw [touched, UInt64.toNat_zero, Nat.add_zero, Finset.Ico_self, Finset.image_empty,
    Finset.card_empty]

/-- The pitches begun by the extent are the units touched, and one more if nothing is touched
between two grid points. -/
theorem pitchesIn_extent_eq (g : Grid) (start length : UInt64) :
    g.pitchesIn (length.toNat + start.toNat % g.pitch.toNat) =
      g.touched start length + if length = 0 ∧ ¬g.pitch.toNat ∣ start.toNat then 1 else 0 := by
  by_cases hlength : length = 0
  · subst hlength
    simp only [UInt64.toNat_zero, Nat.zero_add, pitchesIn_mod, touched_zero, true_and, ite_not]
  · have hpos : 0 < length := UInt64.pos_iff_ne_zero.mpr hlength
    rw [if_neg fun h => hlength h.1]
    exact (Access.card_image_below ⟨start, length, hpos⟩ g).symm

/-- A request has no count exactly if its extent is no word. Otherwise it counts the units that it
touches, and one more if it is empty and starts between two grid points. -/
theorem count?_exact (g : Grid) (start length : UInt64) :
    (g.count? start length = none ↔
        UInt64.size ≤ length.toNat + start.toNat % g.pitch.toNat) ∧
      ∀ count, g.count? start length = some count ↔
        length.toNat + start.toNat % g.pitch.toNat < UInt64.size ∧
          count.toNat = g.touched start length +
            if length = 0 ∧ ¬g.pitch.toNat ∣ start.toNat then 1 else 0 := by
  constructor
  · rw [count?, Option.map_eq_none_iff, Word.add?, Word.ofNat?_eq_none_iff, UInt64.toNat_mod]
  · intro count
    rw [count?_eq_some_iff, pitchesIn_extent_eq]

/-- An empty request between two pages touches nothing and is counted as one page. -/
theorem count?_of_empty_between_pages :
    Format.fiu.unitGrid.count? 3 0 = some 1 ∧ Format.fiu.unitGrid.touched 3 0 = 0 := by
  decide +kernel

end Footprint.Grid

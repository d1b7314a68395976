import Footprint.WorkingSet
import Mathlib.Data.Finset.Card

/-!
# Working sets as finite sets

The units a working set has seen form a finite set in the mathematical sense.
Seeing a unit inserts it, the size is the number of elements, and membership is
what the working set answers.
-/

namespace Footprint.WorkingSet

/-- The units that have been seen. -/
def elements (s : WorkingSet) : Finset UInt64 := s.toList.toFinset

@[simp] theorem mem_elements {s : WorkingSet} {u : UInt64} :
    u ∈ s.elements ↔ s.contains u = true := by
  rw [elements, List.mem_toFinset, mem_toList]

/-- No unit is listed twice. -/
theorem nodup_toList (s : WorkingSet) : s.toList.Nodup := by
  apply List.Pairwise.imp _ (Std.HashSet.distinct_toList (m := s.units))
  intro u v h he
  simp only [he, BEq.rfl, Bool.true_eq_false] at h

/-- The size is the number of distinct units. -/
@[simp] theorem card_elements (s : WorkingSet) : s.elements.card = s.size := by
  rw [elements, List.toFinset_card_of_nodup s.nodup_toList, length_toList]

/-- Nothing has been seen exactly if there are no elements. -/
theorem isEmpty_iff {s : WorkingSet} : s.isEmpty = true ↔ s.elements = ∅ := by
  rw [← Finset.card_eq_zero, card_elements, isEmpty, Std.HashSet.isEmpty_eq_size_eq_zero,
    beq_iff_eq, size]

@[simp] theorem elements_empty : empty.elements = ∅ := by
  rw [← Finset.card_eq_zero, card_elements, size_empty]

/-- Seeing a unit adds it to the elements. -/
@[simp] theorem elements_insert (s : WorkingSet) (u : UInt64) :
    (s.insert u).elements = s.elements ∪ {u} := by
  ext v
  rw [mem_elements, contains_insert, Bool.or_eq_true, beq_iff_eq, Finset.mem_union, mem_elements,
    Finset.mem_singleton, Or.comm, eq_comm (a := u)]

/-- Seeing a list adds its units to the elements, each once. -/
@[simp] theorem elements_insertAll (s : WorkingSet) (us : List UInt64) :
    (s.insertAll us).elements = s.elements ∪ us.toFinset := by
  ext v
  rw [mem_elements, contains_insertAll, Bool.or_eq_true, List.contains_iff_mem, Finset.mem_union,
    mem_elements, List.mem_toFinset, Or.comm]

/-- Working sets with the same elements give the same answers and have the same size. -/
theorem contains_and_size_eq {s t : WorkingSet} (h : s.elements = t.elements) :
    (∀ u, s.contains u = t.contains u) ∧ s.size = t.size := by
  constructor
  · intro u
    rw [Bool.eq_iff_iff, ← mem_elements, h, mem_elements]
  · rw [← card_elements, h, card_elements]

end Footprint.WorkingSet

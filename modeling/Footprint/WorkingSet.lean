import Std.Data.HashSet

/-!
# Working sets

A working set is the finite set of units seen so far. It only grows: there is no
operation that forgets a unit, so its final size is the footprint of a trace.
-/

namespace Footprint

/-- The distinct units seen so far. -/
structure WorkingSet where
  /-- The units, each held once. -/
  units : Std.HashSet UInt64

namespace WorkingSet

/-- No unit has been seen. -/
def empty : WorkingSet := ⟨∅⟩

/-- The unit has been seen. -/
def contains (s : WorkingSet) (u : UInt64) : Bool :=
  s.units.contains u

/-- See a unit. -/
def insert (s : WorkingSet) (u : UInt64) : WorkingSet :=
  ⟨s.units.insert u⟩

/-- See a unit, and tell whether it is new. -/
def insertNew (s : WorkingSet) (u : UInt64) : Bool × WorkingSet :=
  let (seen, units) := s.units.containsThenInsert u
  (!seen, ⟨units⟩)

/-- See every unit of a list. -/
def insertAll (s : WorkingSet) (us : List UInt64) : WorkingSet :=
  us.foldl insert s

/-- The number of distinct units. -/
def size (s : WorkingSet) : Nat :=
  s.units.size

/-- No unit has been seen. -/
def isEmpty (s : WorkingSet) : Bool :=
  s.units.isEmpty

/-- The distinct units in no particular order. -/
def toList (s : WorkingSet) : List UInt64 :=
  s.units.toList

@[simp] theorem contains_empty (u : UInt64) : empty.contains u = false := by
  simp [contains, empty]

/-- Seeing a unit adds it and no other. -/
@[simp] theorem contains_insert (s : WorkingSet) (u v : UInt64) :
    (s.insert u).contains v = (u == v || s.contains v) := by
  simp [contains, insert, Std.HashSet.contains_insert]

/-- A unit is new exactly if it had not been seen, and is seen in any case. -/
theorem insertNew_eq (s : WorkingSet) (u : UInt64) :
    s.insertNew u = (!s.contains u, s.insert u) := by
  simp [insertNew, contains, insert]

@[simp] theorem size_empty : empty.size = 0 := by
  simp [size, empty]

/-- Seeing a list adds its units and no other. -/
theorem contains_insertAll (s : WorkingSet) (us : List UInt64) (v : UInt64) :
    (s.insertAll us).contains v = (us.contains v || s.contains v) := by
  induction us generalizing s with
  | nil => simp [insertAll]
  | cons u r ih =>
    have h := ih (s.insert u)
    simp only [insertAll, List.foldl_cons] at h ⊢
    rw [h, contains_insert, List.contains_cons, BEq.comm (a := v)]
    cases u == v <;> cases r.contains v <;> rfl

/-- The listing holds exactly the units that were seen. -/
theorem mem_toList {s : WorkingSet} {u : UInt64} : u ∈ s.toList ↔ s.contains u = true := by
  simp [toList, contains]

/-- The listing has one entry for each unit counted. -/
@[simp] theorem length_toList (s : WorkingSet) : s.toList.length = s.size := by
  simp [toList, size]

end WorkingSet

end Footprint

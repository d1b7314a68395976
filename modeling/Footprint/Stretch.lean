import Footprint.Access
import Footprint.Grid
import Footprint.Word

/-!
# The units of an access

Rounding the start of an access down to the unit grid lengthens the access by
the remainder, and the extended length rounded up to whole units counts the
units touched. They follow one another at the pitch of the grid, so three words
describe them all: the next unit, how many remain, and the distance between two.
A stretch is made only if its last unit is a word; stepping then never wraps,
because the last step is not taken.
-/

namespace Footprint

/-- Evenly spaced units, given one at a time. -/
structure Stretch where
  /-- The unit that comes next. -/
  next : UInt64
  /-- The number of units still to come. -/
  remaining : UInt64
  /-- The distance between two successive units. -/
  stride : UInt64
  deriving DecidableEq, Repr

namespace Stretch

/-- The next unit and the stretch after it; the address stands still at the last unit. -/
def next? (s : Stretch) : Option (UInt64 × Stretch) :=
  if s.remaining = 0 then none
  else if s.remaining = 1 then some (s.next, { s with remaining := 0 })
  else some (s.next, { s with next := s.next + s.stride, remaining := s.remaining - 1 })

/-- The least and the greatest number of units still to come. -/
def bounds (s : Stretch) : UInt64 × Option UInt64 :=
  (s.remaining, some s.remaining)

private def takeAux : Nat → List UInt64 → Stretch → List UInt64 × Stretch
  | 0, taken, s => (taken.reverse, s)
  | n + 1, taken, s =>
    match s.next? with
    | none => (taken.reverse, s)
    | some (u, t) => takeAux n (u :: taken) t

/-- The first `n` units in order, or as many as there are, and the stretch after them. -/
def take (s : Stretch) (n : Nat) : List UInt64 × Stretch :=
  takeAux n [] s

/-- All units in order. -/
def toList (s : Stretch) : List UInt64 :=
  (s.take s.remaining.toNat).1

private def foldAux {β : Type} (f : β → UInt64 → β) : Nat → β → Stretch → β
  | 0, b, _ => b
  | n + 1, b, s =>
    match s.next? with
    | none => b
    | some (u, t) => foldAux f n (f b u) t

/-- Combine all units from the first to the last. -/
def foldl {β : Type} (f : β → UInt64 → β) (b : β) (s : Stretch) : β :=
  foldAux f s.remaining.toNat b s

/-- There is no next unit exactly when none remains. -/
theorem next?_eq_none_iff {s : Stretch} : s.next? = none ↔ s.remaining = 0 := by
  unfold next?
  split
  · rename_i h
    simp only [h]
  · rename_i h
    split <;> simp only [h, reduceCtorEq]

private theorem takeAux_eq (n : Nat) (taken : List UInt64) (s : Stretch) :
    takeAux n taken s = (taken.reverse ++ (takeAux n [] s).1, (takeAux n [] s).2) := by
  induction n generalizing taken s with
  | zero => simp only [takeAux, List.reverse_nil, List.append_nil]
  | succ n ih =>
    simp only [takeAux]
    split
    · simp only [List.reverse_nil, List.append_nil]
    · rename_i u t _
      rw [ih (u :: taken), ih [u]]
      simp only [List.reverse_cons, List.reverse_nil, List.nil_append, List.append_assoc]

@[simp] theorem take_zero (s : Stretch) : s.take 0 = ([], s) := rfl

/-- Taking from a stretch with a next unit takes that unit first. -/
theorem take_succ {s t : Stretch} {u : UInt64} (h : s.next? = some (u, t)) (n : Nat) :
    s.take (n + 1) = (u :: (t.take n).1, (t.take n).2) := by
  simp only [take, takeAux, h]
  rw [takeAux_eq n [u]]
  rfl

/-- Nothing can be taken from a stretch without a next unit. -/
theorem take_of_next?_eq_none {s : Stretch} (h : s.next? = none) (n : Nat) :
    s.take n = ([], s) := by
  cases n with
  | zero => rfl
  | succ n => simp only [take, takeAux, h, List.reverse_nil]

private theorem foldAux_eq {β : Type} (f : β → UInt64 → β) (n : Nat) (b : β) (s : Stretch) :
    foldAux f n b s = (s.take n).1.foldl f b := by
  induction n generalizing b s with
  | zero => rfl
  | succ n ih =>
    cases h : s.next? with
    | none => simp only [foldAux, h, take_of_next?_eq_none h, List.foldl_nil]
    | some p => simp only [foldAux, h, take_succ h, List.foldl_cons, ih]

/-- Combining the units of a stretch is combining their list. -/
theorem foldl_eq {β : Type} (f : β → UInt64 → β) (b : β) (s : Stretch) :
    s.foldl f b = s.toList.foldl f b :=
  foldAux_eq f s.remaining.toNat b s

end Stretch

/-- The number of units touched by a request, if its extended length is a word. -/
def Grid.count? (g : Grid) (start length : UInt64) : Option UInt64 :=
  (Word.add? length (start % g.pitch)).map fun extended =>
    extended / g.pitch + if 0 < extended % g.pitch then 1 else 0

/-- The units touched by an access, if they can all be addressed. -/
def Access.units? (a : Access) (g : Grid) : Option Stretch := do
  let first := g.floor a.start
  let count ← g.count? a.start a.length
  let reach ← Word.mul? (count - 1) g.pitch
  let _last ← Word.add? first reach
  return { next := first, remaining := count, stride := g.pitch }

/-- The units touched by an access, or the access as an overflow. -/
def Access.units (a : Access) (g : Grid) : Except Access.Overflow Stretch :=
  match a.units? g with
  | some s => .ok s
  | none => .error ⟨a.start, a.length⟩

end Footprint

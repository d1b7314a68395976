import Footprint.Proofs.WorkingSet.Elements

/-!
# What a working set replies

A working set is shown units, one at a time or in lists, and asked about units, in any order. What
can be told of it after an operation is the answer, the size and whether it is empty. Every
operation changes the elements as it would change a finite set, and its reply is read off the
elements alone, so a working set cannot be told from the finite set of the units that it has been
shown. Such a set has no order and no repetitions: how a list is shown makes no difference, and no
operation takes anything away.
-/

namespace Footprint.WorkingSet

/-- What a working set can be asked to do. -/
inductive Operation where
  /-- See a unit, and tell whether it is new. -/
  | insert (u : UInt64)
  /-- Tell whether a unit has been seen. -/
  | contains (u : UInt64)
  /-- See every unit of a list. -/
  | insertAll (us : List UInt64)

/-- What can be told of a set of units after an operation. -/
structure Reply where
  /-- The answer to the operation, if it has one. -/
  answer : Option Bool
  /-- The number of units in the set. -/
  size : Nat
  /-- There is no unit in the set. -/
  isEmpty : Bool
  deriving DecidableEq, Repr

/-- The answer to an operation, if it has one, and the working set after it. -/
def apply (s : WorkingSet) : Operation → Option Bool × WorkingSet
  | .insert u => (some (s.insertNew u).1, (s.insertNew u).2)
  | .contains u => (some (s.contains u), s)
  | .insertAll us => (none, s.insertAll us)

/-- The working set after all operations. -/
def after (s : WorkingSet) (ops : List Operation) : WorkingSet :=
  ops.foldl (fun s op => (s.apply op).2) s

/-- The replies to the operations, one after another. -/
def replies (s : WorkingSet) : List Operation → List Reply
  | [] => []
  | op :: rest =>
    ⟨(s.apply op).1, (s.apply op).2.size, (s.apply op).2.isEmpty⟩ :: (s.apply op).2.replies rest

namespace Operation

/-- The units that an operation shows. -/
def shown : Operation → List UInt64
  | .insert u => [u]
  | .contains _ => []
  | .insertAll us => us

/-- The answer of a finite set to an operation, if it has one, and the finite set after it. -/
def onSet (units : Finset UInt64) : Operation → Option Bool × Finset UInt64
  | .insert u => (some (decide (u ∉ units)), units ∪ {u})
  | .contains u => (some (decide (u ∈ units)), units)
  | .insertAll us => (none, units ∪ us.toFinset)

/-- The replies of a finite set to the operations, one after another. -/
def repliesOnSet (units : Finset UInt64) : List Operation → List Reply
  | [] => []
  | op :: rest =>
    ⟨(op.onSet units).1, (op.onSet units).2.card, decide ((op.onSet units).2 = ∅)⟩ ::
      repliesOnSet (op.onSet units).2 rest

/-- A finite set gains the units that it is shown, and nothing else happens to it. -/
theorem onSet_snd (units : Finset UInt64) (op : Operation) :
    (op.onSet units).2 = units ∪ op.shown.toFinset := by
  cases op with
  | insert u => rfl
  | contains u => exact (Finset.union_empty units).symm
  | insertAll us => rfl

/-- Units shown one by one are shown in their order. -/
theorem flatMap_shown_map_insert (us : List UInt64) : (us.map insert).flatMap shown = us := by
  rw [List.flatMap_map]
  exact List.flatMap_singleton' us

end Operation

open Operation

/-- A working set answers an operation as the finite set of its elements does. -/
theorem answer_apply (s : WorkingSet) (op : Operation) :
    (s.apply op).1 = (op.onSet s.elements).1 := by
  have hmem (u : UInt64) : s.contains u = decide (u ∈ s.elements) := by
    rw [Bool.eq_iff_iff, decide_eq_true_iff, mem_elements]
  cases op with
  | insert u => simp only [apply, onSet, insertNew_eq, hmem, decide_not]
  | contains u => simp only [apply, onSet, hmem]
  | insertAll us => rfl

/-- An operation changes the elements as it changes a finite set. -/
theorem elements_apply (s : WorkingSet) (op : Operation) :
    (s.apply op).2.elements = (op.onSet s.elements).2 := by
  cases op with
  | insert u => simp only [apply, onSet, insertNew_eq, elements_insert]
  | contains u => rfl
  | insertAll us => simp only [apply, onSet, elements_insertAll]

/-- A working set replies to any operations as the finite set of its elements does. -/
theorem replies_eq (s : WorkingSet) (ops : List Operation) :
    s.replies ops = repliesOnSet s.elements ops := by
  induction ops generalizing s with
  | nil => rfl
  | cons op rest ih =>
    have hempty : (s.apply op).2.isEmpty = decide ((s.apply op).2.elements = ∅) := by
      rw [Bool.eq_iff_iff, decide_eq_true_iff, isEmpty_iff]
    rw [replies, repliesOnSet, answer_apply, ih, hempty, ← card_elements, elements_apply]

/-- After any operations, the elements are those of before and the units shown. -/
theorem elements_after (s : WorkingSet) (ops : List Operation) :
    (s.after ops).elements = s.elements ∪ (ops.flatMap shown).toFinset := by
  induction ops generalizing s with
  | nil => exact (Finset.union_empty s.elements).symm
  | cons op rest ih =>
    rw [after, List.foldl_cons, ← after, ih, elements_apply, onSet_snd, List.flatMap_cons,
      List.toFinset_append, Finset.union_assoc]

/-- No operation takes an element away, so the size never falls. -/
theorem elements_subset_after (s : WorkingSet) (ops : List Operation) :
    s.elements ⊆ (s.after ops).elements ∧ s.size ≤ (s.after ops).size := by
  have hsubset : s.elements ⊆ (s.after ops).elements := by
    rw [elements_after]
    exact Finset.subset_union_left
  refine ⟨hsubset, ?_⟩
  rw [← card_elements, ← card_elements]
  exact Finset.card_le_card hsubset

/-- A list of units has the effect of its units one by one, in any order and however often each
of them comes. -/
theorem elements_after_insertAll {us vs : List UInt64} (h : ∀ u, u ∈ us ↔ u ∈ vs)
    (s : WorkingSet) :
    (s.after [.insertAll us]).elements = (s.after (vs.map .insert)).elements := by
  have hsame : us.toFinset = vs.toFinset := by
    ext u
    rw [List.mem_toFinset, List.mem_toFinset, h]
  rw [elements_after, elements_after, flatMap_shown_map_insert, List.flatMap_singleton, shown,
    hsame]

/-- A fresh working set replies to any operations as the empty set does. It has then seen exactly
the units that they show it, and never loses one: whatever follows, its elements stay and its size
does not fall. Lists of the same units, in whatever order and with whatever repetitions, have the
same effect at once and unit by unit, and nothing that follows tells them apart. -/
theorem replies_exact (ops : List Operation) :
    let s := empty.after ops
    empty.replies ops = repliesOnSet ∅ ops ∧
      (∀ u, s.contains u = true ↔ ∃ op ∈ ops, u ∈ op.shown) ∧
      (∀ more, s.elements ⊆ (s.after more).elements ∧ s.size ≤ (s.after more).size) ∧
      ∀ us vs : List UInt64, (∀ u, u ∈ us ↔ u ∈ vs) →
        (s.after [.insertAll us]).elements = (s.after (vs.map .insert)).elements ∧
          ∀ more, (s.after [.insertAll us]).replies more =
            (s.after (vs.map .insert)).replies more := by
  intro s
  refine ⟨?_, ?_, s.elements_subset_after, ?_⟩
  · rw [replies_eq, elements_empty]
  · intro u
    rw [← mem_elements, elements_after, elements_empty, Finset.empty_union, List.mem_toFinset,
      List.mem_flatMap]
  · intro us vs h
    have heffect := elements_after_insertAll h s
    refine ⟨heffect, fun more => ?_⟩
    rw [replies_eq, replies_eq, heffect]

/-- A list with a repeated unit, then two units one by one, the first of which is not new; the units
of another list then come in the reverse order and one of them twice. -/
theorem replies_exact_of_repeated_units :
    let ops : List Operation := [.insertAll [16, 8, 16], .insert 8, .contains 24, .insert 24]
    empty.replies ops =
        [⟨none, 2, false⟩, ⟨some false, 2, false⟩, ⟨some false, 2, false⟩, ⟨some true, 3, false⟩] ∧
      (∀ u : UInt64, u ∈ [8, 32] ↔ u ∈ [32, 8, 32]) ∧
      ((empty.after ops).after [.insertAll [8, 32]]).elements =
        ((empty.after ops).after ([32, 8, 32].map .insert)).elements := by
  intro ops
  obtain ⟨hreplies, _, _, heffect⟩ := replies_exact ops
  have hsame (u : UInt64) : u ∈ [8, 32] ↔ u ∈ [32, 8, 32] := by
    simp only [List.mem_cons, List.not_mem_nil, or_false]
    grind
  exact ⟨hreplies.trans (by decide +kernel), hsame, (heffect _ _ hsame).1⟩

end Footprint.WorkingSet

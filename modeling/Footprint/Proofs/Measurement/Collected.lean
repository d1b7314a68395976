import Footprint.Measurement
import Footprint.Proofs.Trace.Transcript

/-!
# Measuring while reading is measuring what was read

A measurement adds each access to its tally before it asks the reading for the next one.
It succeeds just if the reading, asked until it gives no more accesses, ends without a
fault, and all accesses it gave can be added to the tally one after the other. The
counters are then those of the reading at its end and of the tally so filled.
-/

namespace Footprint

/-- What a reading gives after all its accesses, and the reading that is left. -/
def Reading.ending (r : Reading) : Step × Reading :=
  (r.after r.accesses.length).next

theorem Reading.ending_of_access {r s : Reading} {a : Access} (h : r.next = (.access a, s)) :
    r.ending = s.ending := by
  rw [ending, accesses_of_access h, List.length_cons, after, h]
  rfl

theorem Reading.ending_of_forall_ne {r : Reading} (h : ∀ a, r.next.1 ≠ .access a) :
    r.ending = r.next := by
  rw [ending, accesses_of_forall_ne h]
  rfl

namespace Measurement

/-- A measurement succeeds just if the reading ends without a fault and its accesses, taken
together, can be added to the tally. -/
theorem finish_eq_iff {r s : Reading} {t t' : Tally} :
    finish r t = ⟨s, t', none⟩ ↔
      r.ending = (.finished, s) ∧ r.accesses.foldlM Tally.add t = .ok t' := by
  induction hlength : r.pending.length using Nat.strongRecOn generalizing r t with
  | ind n ih =>
    obtain ⟨⟨step, next⟩, hr⟩ : ∃ q, r.next = q := ⟨_, rfl⟩
    cases step with
    | finished =>
      have hne : ∀ a, r.next.1 ≠ .access a := by
        rw [hr]
        exact nofun
      rw [finish_of_finished hr, Reading.ending_of_forall_ne hne,
        Reading.accesses_of_forall_ne hne, hr, List.foldlM_nil]
      simp [pure, Except.pure]
    | fault e =>
      have hne : ∀ a, r.next.1 ≠ .access a := by
        rw [hr]
        exact nofun
      rw [finish_of_fault hr, Reading.ending_of_forall_ne hne, hr]
      simp
    | access a =>
      -- Both sides go on from the next reading, with a tally to which the access was added.
      rw [finish_of_access hr, Reading.ending_of_access hr, Reading.accesses_of_access hr,
        List.foldlM_cons]
      cases t.add a with
      | ok added => exact ih _ (hlength ▸ Reading.length_pending_next_lt hr) rfl
      | error e => simp [bind, Except.bind]

end Measurement

end Footprint

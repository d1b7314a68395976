import Footprint.Measurement
import Footprint.Proofs.Trace.LineEnds

/-!
# A measurement does not see how lines end

Readings that are alike are measured alike, for a measurement looks at the steps of its
reading only. So the returns before line feeds and the line feed after the last line
change neither what is read nor what is measured, and the same fault is reported with the
same number and the same quoted text.
-/

namespace Footprint.Measurement

/-- Readings that are alike are measured with the same fault, the same counters and the same
tally. -/
theorem finish_of_alike {r s : Reading} (h : r.Alike s) (t : Tally) :
    (finish r t).fault = (finish s t).fault ∧ (finish r t).stats = (finish s t).stats ∧
      (finish r t).tally = (finish s t).tally := by
  induction hlength : r.pending.length using Nat.strongRecOn generalizing r s t with
  | ind n ih =>
    obtain ⟨hstep, halike⟩ := h.next
    obtain ⟨⟨step, r'⟩, hr⟩ : ∃ q, r.next = q := ⟨_, rfl⟩
    obtain ⟨⟨step', s'⟩, hs⟩ : ∃ q, s.next = q := ⟨_, rfl⟩
    rw [hr, hs] at hstep halike
    obtain rfl : step = step' := hstep
    cases step with
    | finished =>
      rw [finish_of_finished hr, finish_of_finished hs]
      exact ⟨rfl, halike.stats_eq, rfl⟩
    | fault e =>
      rw [finish_of_fault hr, finish_of_fault hs]
      exact ⟨rfl, halike.stats_eq, rfl⟩
    | access a =>
      rw [finish_of_access hr, finish_of_access hs]
      cases t.add a with
      | ok t' => exact ih _ (hlength ▸ Reading.length_pending_next_lt hr) halike t' rfl
      | error e => exact ⟨rfl, halike.stats_eq, rfl⟩

/-- A source that does not fail is read and measured in the same way with a carriage return before
every line feed, with a line feed after its last line, and with both: it gives the same steps and
the same counters after each, and in either mode the same fault, the same tally and so the same
totals. -/
theorem line_ends_unseen (format : Format) (mode : CacheMode) (hours : Option UInt64)
    (bytes : List UInt8) :
    let reading := fun bytes : List UInt8 => Reading.start format hours ⟨bytes, none⟩
    let measured := fun bytes : List UInt8 => run format mode hours ⟨bytes, none⟩
    let same := fun changed =>
      (∀ n, ((reading changed).after n).next.1 = ((reading bytes).after n).next.1 ∧
          ((reading changed).after n).stats = ((reading bytes).after n).stats) ∧
        (measured changed).fault = (measured bytes).fault ∧
        (measured changed).stats = (measured bytes).stats ∧
        (measured changed).tally = (measured bytes).tally
    same (Content.withReturns bytes) ∧ same (Content.terminate bytes) ∧
      same (Content.withReturns (Content.terminate bytes)) ∧
      same (Content.terminate (Content.withReturns bytes)) := by
  intro reading measured same
  have hsame {changed : List UInt8}
      (h : Line.verdicts format hours.isSome (Content.lines ⟨changed, none⟩) =
        Line.verdicts format hours.isSome (Content.lines ⟨bytes, none⟩)) : same changed := by
    have halike : (reading changed).Alike (reading bytes) := Reading.alike_start h
    refine ⟨fun n => ⟨(halike.after n).next.1, (halike.after n).stats_eq⟩, ?_⟩
    exact finish_of_alike halike _
  refine ⟨hsame ?_, hsame ?_, hsame ?_, hsame ?_⟩
  · exact Content.verdicts_lines_withReturns ..
  · exact Content.verdicts_lines_terminate ..
  · exact (Content.verdicts_lines_withReturns ..).trans (Content.verdicts_lines_terminate ..)
  · exact (Content.verdicts_lines_terminate ..).trans (Content.verdicts_lines_withReturns ..)

end Footprint.Measurement

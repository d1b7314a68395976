import Footprint.Tally
import Footprint.Trace.Reading

/-!
# Measurements

A measurement reads a trace into a tally, one access at a time, and stops at the
first thing that goes wrong: a line that cannot be read or understood, or an
access whose units cannot all be addressed. Reading and counting alternate, so
of two faults the one on the earlier line is reported, and the counters show the
lines before it.
-/

namespace Footprint

/-- Why a measurement stopped early. -/
inductive MeasurementFault where
  /-- The reading ended with a fault. -/
  | reading (fault : ReadingFault)
  /-- The units of an access cannot all be addressed. -/
  | overflow (overflow : Access.Overflow)
  deriving DecidableEq, Repr

/-- The fault in words. -/
def MeasurementFault.message : MeasurementFault → String
  | .reading e => e.message
  | .overflow e => e.message

/-- How far a measurement came. -/
structure Measurement where
  /-- The reading at its end. -/
  reading : Reading
  /-- The accesses counted. -/
  tally : Tally
  /-- What went wrong, if anything did. -/
  fault : Option MeasurementFault

namespace Measurement

/-- Read everything that is left into the tally. -/
def finish (r : Reading) (t : Tally) : Measurement :=
  match h : r.next with
  | (.access a, s) =>
    have : s.pending.length < r.pending.length := Reading.length_pending_next_lt h
    match a.units t.units with
    | .ok units => finish s (t.take units)
    | .error e => ⟨s, t, some (.overflow e)⟩
  | (.fault e, s) => ⟨s, t, some (.reading e)⟩
  | (.finished, s) => ⟨s, t, none⟩
termination_by r.pending.length

/-- A finished reading ends the measurement as it is. -/
theorem finish_of_finished {r s : Reading} (h : r.next = (.finished, s)) (t : Tally) :
    finish r t = ⟨s, t, none⟩ := by
  rw [finish]
  split <;> simp_all

/-- A fault of the reading ends the measurement. -/
theorem finish_of_fault {r s : Reading} {e : ReadingFault} (h : r.next = (.fault e, s))
    (t : Tally) : finish r t = ⟨s, t, some (.reading e)⟩ := by
  rw [finish]
  split <;> simp_all

/-- An access is added to the tally before the reading goes on. -/
theorem finish_of_access {r s : Reading} {a : Access} (h : r.next = (.access a, s)) (t : Tally) :
    finish r t =
      match t.add a with
      | .ok t => finish s t
      | .error e => ⟨s, t, some (.overflow e)⟩ := by
  rw [finish]
  split
  · rename_i he
    cases h.symm.trans he
    rw [Tally.add]
    cases a.units t.units <;> rfl
  · rename_i he
    exact nomatch h.symm.trans he
  · rename_i he
    exact nomatch h.symm.trans he

/-- Measure a content from its first line. -/
def run (format : Format) (mode : CacheMode) (hours : Option UInt64) (content : Content) :
    Measurement :=
  finish (.start format hours content) (.start format mode)

/-- The counters of the reading. -/
def stats (m : Measurement) : Stats :=
  m.reading.stats

/-- The counters of the tally. -/
def totals (m : Measurement) : Totals :=
  m.tally.totals

end Measurement

end Footprint

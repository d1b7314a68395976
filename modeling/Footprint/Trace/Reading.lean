import Footprint.Trace.Entry
import Footprint.Trace.Source
import Footprint.Trace.Window

/-!
# Readings

A reading goes through the lines of a trace and gives the accesses one at a time
in the order of the lines. Requests of length zero are counted and passed over
before the time window sees them. The first line that cannot be read or
understood ends the reading with its fault; the first access outside the window
ends it without one. Nothing follows the end.
-/

namespace Footprint

/-- What has been counted so far. -/
structure Stats where
  /-- The lines read, also empty requests and the line that closed the window. -/
  lines : Nat
  /-- The requests of length zero. -/
  empty : Nat
  /-- The reading ended at the window and not at the end of the trace. -/
  closed : Bool
  deriving DecidableEq, Repr

/-- Where a reading stands between two lines. -/
structure Progress where
  /-- The time window, if the reading is limited. -/
  window : Option Window
  /-- The counters. -/
  stats : Stats
  deriving DecidableEq, Repr

/-- Why a reading ended early. -/
inductive ReadingFault where
  /-- A line says nothing that can be understood. -/
  | entry (fault : Entry.Fault)
  /-- A line could not be read. -/
  | content (fault : Content.Fault)
  deriving DecidableEq, Repr

/-- The fault in words. -/
def ReadingFault.message : ReadingFault → String
  | .entry e => e.message
  | .content e => e.message

/-- What a line does to a reading. -/
inductive Effect where
  /-- The line is an empty request. -/
  | pass
  /-- The line gives an access. -/
  | give (access : Access)
  /-- The line is the first outside the window. -/
  | close
  /-- The line ends the reading with a fault. -/
  | fail (fault : ReadingFault)
  deriving DecidableEq

namespace Progress

/-- No line has been read. -/
def start (window : Option Window) : Progress :=
  { window, stats := { lines := 0, empty := 0, closed := false } }

/-- One more line has been read. -/
def count (p : Progress) : Progress :=
  { p with stats := { p.stats with lines := p.stats.lines + 1 } }

/-- One more empty request has been passed over. -/
def countEmpty (p : Progress) : Progress :=
  { p with stats := { p.stats with empty := p.stats.empty + 1 } }

/-- The window has been left. -/
def close (p : Progress) : Progress :=
  { p with stats := { p.stats with closed := true } }

/-- Show an access with its timestamp to the window. -/
def show? (p : Progress) (access : Access) (timestamp : Option UInt64) : Effect × Progress :=
  match p.window, timestamp with
  | some window, some stamp =>
    let p := { p with window := some (window.accept stamp).2 }
    if (window.accept stamp).1 then (.give access, p) else (.close, p.close)
  | _, _ => (.give access, p)

/-- Take one line. A line that could not be read is not counted. -/
def take (format : Format) (p : Progress) : Except Content.Fault String → Effect × Progress
  | .error e => (.fail (.content e), p)
  | .ok text =>
    let p := p.count
    match Entry.parse format.layout p.stats.lines text p.window.isSome with
    | .error e => (.fail (.entry e), p)
    | .ok ⟨none, _⟩ => (.pass, p.countEmpty)
    | .ok ⟨some access, timestamp⟩ => p.show? access timestamp

end Progress

/-- A trace being read. -/
structure Reading where
  /-- The format of the lines. -/
  format : Format
  /-- Where the reading stands. -/
  progress : Progress
  /-- The lines still to be read; none are left after the end. -/
  pending : List (Except Content.Fault String)

/-- What a reading gives when it is asked to go on. -/
inductive Step where
  /-- The next access. -/
  | access (access : Access)
  /-- The fault with which the reading ends. -/
  | fault (fault : ReadingFault)
  /-- Nothing more. -/
  | finished
  deriving DecidableEq

namespace Reading

/-- A reading of the given content, limited to the first hours if hours are given. -/
def start (format : Format) (hours : Option UInt64) (content : Content) : Reading :=
  { format, progress := .start (hours.map (Window.ofHours format)), pending := content.lines }

/-- The counters. -/
def stats (r : Reading) : Stats :=
  r.progress.stats

private def advance (format : Format) (p : Progress) :
    List (Except Content.Fault String) → Step × Reading
  | [] => (.finished, ⟨format, p, []⟩)
  | line :: rest =>
    match p.take format line with
    | (.pass, p) => advance format p rest
    | (.give access, p) => (.access access, ⟨format, p, rest⟩)
    | (.close, p) => (.finished, ⟨format, p, []⟩)
    | (.fail fault, p) => (.fault fault, ⟨format, p, []⟩)

/-- Go on to the next access, the fault or the end. -/
def next (r : Reading) : Step × Reading :=
  advance r.format r.progress r.pending

/-- Nothing pending means that the reading has ended. -/
theorem next_of_pending_eq_nil {r : Reading} (h : r.pending = []) : r.next = (.finished, r) := by
  obtain ⟨format, p, pending⟩ := r
  cases h
  rfl

/-- What the next line does decides how a reading goes on. -/
theorem next_of_pending_eq_cons {r : Reading} {line : Except Content.Fault String}
    {rest : List (Except Content.Fault String)} (h : r.pending = line :: rest) :
    r.next =
      match r.progress.take r.format line with
      | (.pass, p) => Reading.next ⟨r.format, p, rest⟩
      | (.give access, p) => (.access access, ⟨r.format, p, rest⟩)
      | (.close, p) => (.finished, ⟨r.format, p, []⟩)
      | (.fail fault, p) => (.fault fault, ⟨r.format, p, []⟩) := by
  obtain ⟨format, p, pending⟩ := r
  cases h
  rfl

private theorem length_pending_advance_lt {format : Format} {p : Progress}
    {pending : List (Except Content.Fault String)} {access : Access} {r : Reading}
    (h : advance format p pending = (.access access, r)) :
    r.pending.length < pending.length := by
  induction pending generalizing p with
  | nil => exact nomatch h
  | cons line rest ih =>
    rw [advance] at h
    split at h
    · exact Nat.lt_succ_of_lt (ih h)
    · cases h
      exact Nat.lt_succ_self _
    · exact nomatch h
    · exact nomatch h

/-- An access uses up at least one line. -/
theorem length_pending_next_lt {r s : Reading} {access : Access}
    (h : r.next = (.access access, s)) : s.pending.length < r.pending.length :=
  length_pending_advance_lt h

end Reading

end Footprint

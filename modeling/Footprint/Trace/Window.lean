import Footprint.Format
import Footprint.Word

/-!
# Time windows

A window admits the accesses of the first hours of a trace. The first timestamp
it is shown anchors it; from then on its last admitted timestamp never changes.
Both the length of a window and its end stop at the greatest word, and no
timestamp lies beyond that.
-/

namespace Footprint

/-- A stretch of trace time that opens with the first access. -/
structure Window where
  /-- The length of the window in ticks. -/
  length : UInt64
  /-- The last admitted timestamp, once the window is anchored. -/
  last : Option UInt64
  deriving DecidableEq, Repr

namespace Window

/-- A window of so many hours that is not yet anchored. -/
def ofHours (format : Format) (hours : UInt64) : Window :=
  { length := Word.mulCapped format.hourTicks hours, last := none }

/-- The last admitted timestamp if the given stamp is the next one shown. -/
def lastFor (w : Window) (stamp : UInt64) : UInt64 :=
  w.last.getD (Word.addCapped stamp w.length)

/-- Whether a timestamp is inside the window, and the window anchored. -/
def accept (w : Window) (stamp : UInt64) : Bool × Window :=
  (decide (stamp ≤ w.lastFor stamp), { w with last := some (w.lastFor stamp) })

/-- An anchored window stays as it is. -/
theorem accept_of_last {w : Window} {last : UInt64} (h : w.last = some last) (stamp : UInt64) :
    w.accept stamp = (decide (stamp ≤ last), w) := by
  obtain ⟨length, _⟩ := w
  cases h
  rfl

end Window

end Footprint

import Footprint.Json.Forms
import Footprint.Trace.Reading

/-!
# Reports

A report repeats what was measured and how, next to the counters of the reading
and of the tally. It is written with one member to a line and ends with a line
feed.
-/

namespace Footprint

/-- Everything known about a measurement. -/
structure Report where
  /-- The path of the trace as given. -/
  trace : String
  /-- The format of the trace. -/
  format : Format
  /-- The cache mode. -/
  mode : CacheMode
  /-- The hours to which the measurement was limited. -/
  hours : Option UInt64
  /-- The counters of the reading. -/
  stats : Stats
  /-- The counters of the tally. -/
  totals : Totals
  deriving DecidableEq, Repr

namespace Report

/-- The members of a report in order. -/
def toRecord (r : Report) : Json.Record :=
  [("trace", .ofText r.trace), ("format", r.format.toLeaf), ("cache_mode", r.mode.toLeaf),
    ("duration_hours", (r.hours.map Json.Leaf.ofWord).getD .null),
    ("lines", .ofNat r.stats.lines), ("empty_records", .ofNat r.stats.empty),
    ("window_closed", .bool r.stats.closed)] ++ r.totals.toRecord

/-- The text of a report. -/
def render (r : Report) : String :=
  String.ofList (r.toRecord.pretty ++ ['\n'])

end Report

end Footprint

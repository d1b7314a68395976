import Footprint.Format
import Footprint.Synthetic.Draw

/-!
# Synthetic traces

Synthetic requests move forward in time by about a millisecond each. Most start
in a small hot region, so that units repeat, and a few in a larger one; most
starts and lengths are whole units, some are not; about one request in a hundred
is empty. A request is written as one line in the manner of its format.
-/

namespace Footprint.Synthetic

/-- A request as a trace records it. -/
structure Request where
  /-- The time of the request in ticks. -/
  timestamp : UInt64
  /-- The first address. -/
  start : UInt64
  /-- The number of addresses, possibly zero. -/
  length : UInt64
  /-- The request writes and does not read. -/
  write : Bool
  deriving DecidableEq, Repr

namespace Request

/-- The line of a request, without its terminator. -/
def render (r : Request) : Format → String
  | .fiu =>
    let kind := if r.write then "W" else "R"
    s!"{r.timestamp} 4242 synth {r.start} {r.length} {kind} 8 0 00000000000000000000000000000000"
  | .msr =>
    let kind := if r.write then "Write" else "Read"
    s!"{r.timestamp},synth,0,{kind},{r.start},{r.length},100"

end Request

/-- The time at which synthetic traces of a format begin. -/
def firstTime : Format → UInt64
  | .fiu => 89000000000
  | .msr => 128166372000000000

/-- The ticks of a format in a millisecond. -/
def millisecondTicks : Format → UInt64
  | .fiu => 1000000
  | .msr => 10000

/-- The units in the hot region. -/
def hotUnits : UInt64 := 4096

/-- The units in the larger region, which includes the hot one. -/
def allUnits : UInt64 := 1048576

/-- The units of the longest request. -/
def longestUnits : UInt64 := 32

/-- The start of a request, most often on a unit of the hot region. -/
def drawStart (pitch : UInt64) : Draw UInt64 := do
  let hot ← Draw.coin 16602069666338596864
  let unit ← Draw.among 0 (if hot then hotUnits else allUnits)
  let unaligned ← Draw.coin 3689348814741910528
  let offset ← if unaligned then Draw.among 0 pitch else pure 0
  return unit * pitch + offset

/-- The length of a request, most often a whole number of units and sometimes zero. -/
def drawLength (pitch : UInt64) : Draw UInt64 := do
  let empty ← Draw.coin 184467440737095520
  if empty then return 0
  let whole ← Draw.coin 12912720851596685312
  if whole then return (← Draw.among 1 longestUnits) * pitch
  Draw.among 1 (longestUnits * pitch)

/-- The request that follows the given time. -/
def drawRequest (format : Format) (time : UInt64) : Draw Request := do
  let pitch := format.unitGrid.pitch
  let step ← Draw.among 1 (2 * millisecondTicks format)
  let start ← drawStart pitch
  let length ← drawLength pitch
  let write ← Draw.coin 5534023222112865280
  return { timestamp := time + step, start, length, write }

/-- So many requests that follow the given time. -/
def drawRequests (format : Format) : Nat → UInt64 → Draw (List Request)
  | 0, _ => pure []
  | n + 1, time => do
    let request ← drawRequest format time
    return request :: (← drawRequests format n request.timestamp)

/-- The first requests of the synthetic trace of a seed. -/
def requests (format : Format) (n : Nat) (seed : UInt64) : List Request :=
  (drawRequests format n (firstTime format) (.ofSeed seed)).1

/-- Requests as the lines of a trace. -/
def render (format : Format) (requests : List Request) : String :=
  String.join (requests.map fun r => r.render format ++ "\n")

end Footprint.Synthetic

import Footprint.Grid

/-!
# Trace formats

Two families of block traces are read. In the first, fields are separated by
spaces and addresses count sectors; in the second, fields are separated by
commas and addresses count bytes. A format fixes where a line keeps the fields
that matter, the grid of its units, the grid of cache blocks, both in its own
addresses, and the rate of its clock.
-/

namespace Footprint

/-- The bytes in one sector, the smallest address step of both formats. -/
def sectorBytes : UInt64 := 512

/-- The bytes in one cache block. -/
def blockBytes : UInt64 := 65536

/-- The trace formats that can be read. -/
inductive Format where
  /-- Spaces, sectors, pages of eight sectors, nanoseconds. -/
  | fiu
  /-- Commas, bytes, blocks of one sector, ticks of a hundred nanoseconds. -/
  | msr
  deriving DecidableEq, Repr

/-- Where a line keeps the fields that matter; fields are numbered from zero. -/
structure Layout where
  /-- The character between two fields. -/
  delimiter : Char
  /-- The number of the timestamp field. -/
  timestamp : Nat
  /-- The number of the start field. -/
  start : Nat
  /-- The number of the length field. -/
  length : Nat
  deriving DecidableEq, Repr

/-- The number of fields a line needs to hold a start and a length. -/
def Layout.fieldsNeeded (l : Layout) : Nat :=
  max l.start l.length + 1

namespace Format

/-- The name of a format on the command line and in reports. -/
def name : Format → String
  | fiu => "fiu"
  | msr => "msr"

/-- A name that no format has. -/
structure Unknown where
  /-- The name as given. -/
  name : String
  deriving DecidableEq, Repr

/-- The refusal of a name in words. -/
def Unknown.message (u : Unknown) : String :=
  s!"unsupported trace format `{u.name}` (expected `fiu` or `msr`)"

/-- The format of the given name; letter case and blanks matter. -/
def ofName? : String → Option Format
  | "fiu" => some fiu
  | "msr" => some msr
  | _ => none

/-- The format of the given name, or the name as unknown. -/
def ofName (name : String) : Except Unknown Format :=
  match ofName? name with
  | some f => .ok f
  | none => .error ⟨name⟩

/-- The places of the fields in a line. -/
def layout : Format → Layout
  | fiu => { delimiter := ' ', timestamp := 0, start := 3, length := 4 }
  | msr => { delimiter := ',', timestamp := 0, start := 4, length := 5 }

/-- The grid of units: pages of 4096 bytes, or sectors. -/
def unitGrid : Format → Grid
  | fiu => ⟨8, by decide⟩
  | msr => ⟨512, by decide⟩

/-- The grid of cache blocks. -/
def blockGrid : Format → Grid
  | fiu => ⟨128, by decide⟩
  | msr => ⟨65536, by decide⟩

/-- The ticks of the trace clock in one hour. -/
def hourTicks : Format → UInt64
  | fiu => 3600000000000
  | msr => 36000000000

/-- Exactly the name of a format is accepted for it. -/
theorem ofName?_eq_some_iff {s : String} {f : Format} : ofName? s = some f ↔ s = f.name := by
  unfold ofName?
  cases f <;> split <;> simp_all [name]

end Format

/-- Whether units are counted as they are or by the cache block that holds them. -/
inductive CacheMode where
  /-- Units are counted as they are. -/
  | exact
  /-- Units are coarsened to cache blocks. -/
  | dmCache
  deriving DecidableEq, Repr

namespace CacheMode

/-- The name of a mode in reports. -/
def name : CacheMode → String
  | .exact => "exact"
  | .dmCache => "dm-cache"

/-- The mode chosen by an argument: only the name of the coarse mode chooses it. -/
def ofArgument : Option String → CacheMode
  | some "dm-cache" => .dmCache
  | _ => .exact

/-- Whether a mode coarsens units. -/
def isCoarse : CacheMode → Bool
  | .exact => false
  | .dmCache => true

/-- The grid to which a mode coarsens the units of a format. -/
def blocks (mode : CacheMode) (format : Format) : Option Grid :=
  if mode.isCoarse then some format.blockGrid else none

end CacheMode

end Footprint

import Footprint.Json.Record
import Footprint.Tally

/-!
# Written forms of the domain

Formats and cache modes are written by name, units as numbers and totals as
records. Reading also takes a name as the only member of an object with the
value null, and totals as an array in the order in which they are written. The
members of totals may come in any order, and members of other names are passed
over.
-/

namespace Footprint

namespace Json

/-- The name that a value is, alone or as the only member of an object with no value. -/
def name? : Json → Option String
  | .leaf (.string written) => (unescape? written).map String.ofList
  | .object [(written, .leaf .null)] => (unescape? written).map String.ofList
  | _ => none

end Json

namespace Format

/-- The written form of a format. -/
def toLeaf (f : Format) : Json.Leaf :=
  .ofText f.name

/-- The format that a value names. -/
def ofJson? (j : Json) : Option Format :=
  j.name?.bind ofName?

end Format

namespace CacheMode

/-- The mode of the given name. -/
def ofName? : String → Option CacheMode
  | "exact" => some .exact
  | "dm-cache" => some .dmCache
  | _ => none

/-- The written form of a mode. -/
def toLeaf (m : CacheMode) : Json.Leaf :=
  .ofText m.name

/-- The mode that a value names. -/
def ofJson? (j : Json) : Option CacheMode :=
  j.name?.bind ofName?

end CacheMode

namespace Totals

/-- The members of the written form of totals. -/
def toRecord (t : Totals) : Json.Record :=
  [("records", .ofWord t.accesses), ("units_emitted", .ofWord t.touched),
    ("working_set", .ofWord t.footprint), ("quantized", .bool t.coarse)]

/-- The written form of totals. -/
def render (t : Totals) : String :=
  String.ofList t.toRecord.compact

/-- The totals with the given values. -/
def ofValues? (accesses touched footprint coarse : Json) : Option Totals := do
  return {
    accesses := ← accesses.word?
    touched := ← touched.word?
    footprint := ← footprint.word?
    coarse := ← coarse.bool? }

/-- The totals that a value holds. -/
def ofJson? : Json → Option Totals
  | .array [accesses, touched, footprint, coarse] => ofValues? accesses touched footprint coarse
  | .array _ => none
  | j => do
    let members ← j.members?
    let only (name : String) := Json.only? name.toList members
    ofValues? (← only "records") (← only "units_emitted") (← only "working_set")
      (← only "quantized")

end Totals

end Footprint

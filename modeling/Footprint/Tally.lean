import Footprint.Format
import Footprint.Stretch
import Footprint.WorkingSet

/-!
# Tallies

A tally takes accesses one at a time, spreads each over the unit grid, coarsens
the units if a block grid is given, and sees them. It counts the accesses taken
and the units they touched, before units that coincide are identified. An access
whose units cannot all be addressed is refused, and the tally before it remains.
-/

namespace Footprint

/-- The counters of a finished measurement. -/
structure Totals where
  /-- The accesses taken. -/
  accesses : UInt64
  /-- The units touched, each access counted on its own. -/
  touched : UInt64
  /-- The distinct units or blocks touched. -/
  footprint : UInt64
  /-- Whether units were coarsened to blocks. -/
  coarse : Bool
  deriving DecidableEq, Repr

/-- A measurement in progress. -/
structure Tally where
  /-- The grid of units. -/
  units : Grid
  /-- The grid of blocks to which units are coarsened. -/
  blocks : Option Grid
  /-- The distinct units or blocks seen. -/
  seen : WorkingSet
  /-- The accesses taken. -/
  accesses : Nat
  /-- The units touched, each access counted on its own. -/
  touched : Nat

namespace Tally

/-- A fresh tally on the given grids. -/
def onGrids (units : Grid) (blocks : Option Grid) : Tally :=
  { units, blocks, seen := .empty, accesses := 0, touched := 0 }

/-- A fresh tally for a format and a cache mode. -/
def start (format : Format) (mode : CacheMode) : Tally :=
  onGrids format.unitGrid (mode.blocks format)

/-- The block or the unit itself under which a unit is seen. -/
def coarsen (blocks : Option Grid) (u : UInt64) : UInt64 :=
  match blocks with
  | some g => g.floor u
  | none => u

/-- See the units of a stretch. -/
def see (blocks : Option Grid) (seen : WorkingSet) (s : Stretch) : WorkingSet :=
  s.foldl (fun seen u => seen.insert (coarsen blocks u)) seen

/-- Take the units of one access. -/
def take (t : Tally) (s : Stretch) : Tally :=
  { t with
    seen := see t.blocks t.seen s
    accesses := t.accesses + 1
    touched := t.touched + s.remaining.toNat }

/-- Take one access. -/
def add (t : Tally) (a : Access) : Except Access.Overflow Tally :=
  (a.units t.units).map t.take

/-- Take one access in place. It is spread before anything of the tally changes. -/
def observe (a : Access) : ExceptT Access.Overflow (StateM Tally) Unit := do
  let s ← a.units (← get).units
  modify fun t => { t with accesses := t.accesses + 1 }
  modify fun t => { t with touched := t.touched + s.remaining.toNat }
  modify fun t => { t with seen := see t.blocks t.seen s }

/-- The counters of the tally as words. -/
def totals (t : Tally) : Totals :=
  { accesses := .ofNat t.accesses
    touched := .ofNat t.touched
    footprint := .ofNat t.seen.size
    coarse := t.blocks.isSome }

end Tally

end Footprint

/-!
# Grids on the addresses

A grid is the set of multiples of a positive pitch. The units in which a trace
is measured form one grid, the blocks of a cache another, and rounding down to a
grid is the same operation for both. A pitch of zero gives no grid, and the
refusal says what the grid was wanted for.
-/

namespace Footprint

/-- The multiples of a positive pitch. -/
@[ext] structure Grid where
  /-- The distance between neighbouring grid points. -/
  pitch : UInt64
  /-- Neighbouring grid points differ. -/
  pitch_pos : 0 < pitch

namespace Grid

instance : DecidableEq Grid := fun _ _ => decidable_of_iff _ Grid.ext_iff.symm

/-- What a grid is laid for. -/
inductive Purpose where
  /-- The units in which accesses are measured. -/
  | units
  /-- The cache blocks to which units are coarsened. -/
  | blocks
  deriving DecidableEq, Repr

/-- A pitch of zero was given for a grid of the stated purpose. -/
structure ZeroPitch where
  /-- What the grid was wanted for. -/
  purpose : Purpose
  deriving DecidableEq, Repr

/-- The refusal of a zero pitch in words. -/
def ZeroPitch.message : ZeroPitch → String
  | ⟨.units⟩ => "unit span must be > 0"
  | ⟨.blocks⟩ => "quantization group must be > 0"

/-- The grid of the given pitch. -/
def ofPitch (purpose : Purpose) (pitch : UInt64) : Except ZeroPitch Grid :=
  if h : 0 < pitch then .ok ⟨pitch, h⟩ else .error ⟨purpose⟩

/-- The greatest grid point that is not above the address. -/
def floor (g : Grid) (address : UInt64) : UInt64 :=
  address - address % g.pitch

/-- The pitch is positive as a natural number. -/
theorem toNat_pitch_pos (g : Grid) : 0 < g.pitch.toNat :=
  UInt64.lt_iff_toNat_lt.mp g.pitch_pos

/-- Rounding down subtracts the natural remainder and never wraps. -/
theorem toNat_floor (g : Grid) (address : UInt64) :
    (g.floor address).toNat = address.toNat - address.toNat % g.pitch.toNat := by
  rw [floor, UInt64.toNat_sub_of_le, UInt64.toNat_mod]
  rw [UInt64.le_iff_toNat_le, UInt64.toNat_mod]
  exact Nat.mod_le _ _

end Grid

end Footprint

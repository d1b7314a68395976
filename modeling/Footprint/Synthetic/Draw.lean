import Footprint.Synthetic.Keystream

/-!
# Draws

A draw below a bound scales a 64-bit word to the bound and keeps the whole part;
when the fractional part is so large that more bits could still carry into the
whole part, a second word supplies them. A coin falls on its likely side when a
word is below a threshold.
-/

namespace Footprint.Synthetic

/-- A value that is determined by a position in a keystream, and the position after it. -/
abbrev Draw := StateM Keystream

namespace Draw

/-- The next word of the keystream. -/
def word : Draw UInt64 :=
  fun k => k.next64

/-- The whole part of a word scaled to a bound; the second word is asked for only if it matters. -/
def scaled (bound : Nat) : Draw Nat := do
  let product := (← word).toNat * bound
  let whole := product / UInt64.size
  let part := product % UInt64.size
  if UInt64.size - bound < part then
    let more := (← word).toNat * bound / UInt64.size
    return if UInt64.size ≤ part + more then whole + 1 else whole
  else return whole

/-- A word from `low` up to, but not including, `low + count`. -/
def among (low count : UInt64) : Draw UInt64 := do
  return low + .ofNat (← scaled count.toNat)

/-- Whether the next word is below the threshold. -/
def coin (threshold : UInt64) : Draw Bool := do
  return decide ((← word) < threshold)

/-- A scaled word stays below its bound, whichever keystream it is drawn from. -/
theorem scaled_lt {bound : Nat} (hpos : 0 < bound) (k : Keystream) :
    (scaled bound k).1 < bound := by
  have scale : ∀ w : UInt64, w.toNat * bound + bound ≤ 2 ^ 64 * bound := by
    intro w
    have hw : w.toNat + 1 ≤ 2 ^ 64 := w.toNat_lt_size
    calc w.toNat * bound + bound = (w.toNat + 1) * bound := by rw [Nat.add_mul, Nat.one_mul]
      _ ≤ 2 ^ 64 * bound := Nat.mul_le_mul_right _ hw
  have more : ∀ w : UInt64, w.toNat * bound / 2 ^ 64 < bound := fun w =>
    Nat.div_lt_of_lt_mul (by have := scale w; omega)
  have step : ∀ w v : UInt64, 2 ^ 64 ≤ w.toNat * bound % 2 ^ 64 + v.toNat * bound / 2 ^ 64 →
      w.toNat * bound / 2 ^ 64 + 1 < bound := by
    intro w v h
    have hs := scale w
    have hm := more v
    have hd := Nat.div_add_mod (w.toNat * bound) (2 ^ 64)
    generalize w.toNat * bound = p at *
    generalize v.toNat * bound / 2 ^ 64 = c at *
    omega
  unfold scaled
  simp only [bind, StateT.bind, word]
  split
  · change (if _ then _ else _ : Nat) < bound
    split
    · rename_i h
      exact step _ _ h
    · exact more _
  · exact more _

end Draw

end Footprint.Synthetic

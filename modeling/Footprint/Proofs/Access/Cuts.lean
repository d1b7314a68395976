import Footprint.Proofs.Access.Units

/-!
# Accesses cut in two

An access can be taken in two parts that follow one another. The first part starts where the
whole does and the second where the first ends, so both are measured from grid points that the
whole passes. Neither part needs more of the words than the whole. A unit is touched by the whole
exactly if one of the parts touches it; the only unit that both can touch is the one that holds
the cut, and it is counted twice unless the cut is on the grid.
-/

namespace Footprint.Access

/-- An access is cut into two that follow one another, the second of which starts at a word. -/
structure CutInto (whole front back : Access) : Prop where
  /-- The first part starts where the whole does. -/
  start_eq : front.start = whole.start
  /-- The second part starts where the first ends. -/
  meet : back.start.toNat = front.start.toNat + front.length.toNat
  /-- Together the parts are as long as the whole. -/
  length_eq : whole.length.toNat = front.length.toNat + back.length.toNat

namespace CutInto

variable {whole front back : Access} {g : Grid}

/-- An address is touched by the whole exactly if one of the parts touches it. -/
theorem touches_iff (h : whole.CutInto front back) {n : Nat} :
    whole.Touches n ↔ front.Touches n ∨ back.Touches n := by
  obtain ⟨hstart, hmeet, hlength⟩ := h
  simp only [Touches, hmeet, hlength, hstart]
  omega

/-- At the cut, the first part is as far from the grid as the second. -/
theorem extent_mod (h : whole.CutInto front back) (g : Grid) :
    front.extent g % g.pitch.toNat = back.start.toNat % g.pitch.toNat := by
  rw [extent, h.meet, Nat.add_mod_mod, Nat.add_comm]

/-- Both parts end where the whole does or before. -/
theorem last_le (h : whole.CutInto front back) :
    front.start.toNat + front.length.toNat - 1 < UInt64.size ∧
      back.start.toNat + back.length.toNat - 1 = whole.start.toNat + whole.length.toNat - 1 := by
  have hword := back.start.toNat_lt_size
  rw [h.length_eq, ← h.start_eq, ← Nat.add_assoc, ← h.meet]
  omega

/-- Neither part is longer from its grid point than the whole is from its own. -/
theorem extent_le (h : whole.CutInto front back) (g : Grid) :
    front.extent g ≤ whole.extent g ∧ back.extent g ≤ whole.extent g := by
  have hmod := Nat.mod_le (front.extent g) g.pitch.toNat
  rw [h.extent_mod] at hmod
  rw [extent, h.start_eq] at hmod ⊢
  rw [extent, extent, h.length_eq]
  omega

/-- If the whole can be spread, so can both parts. -/
theorem exists_units (h : whole.CutInto front back) (hwhole : ∃ s, whole.units g = .ok s) :
    (∃ s, front.units g = .ok s) ∧ ∃ s, back.units g = .ok s := by
  simp only [exists_units_iff] at hwhole ⊢
  obtain ⟨hext, hlast⟩ := hwhole
  obtain ⟨hfront, hback⟩ := h.extent_le g
  obtain ⟨hword, hend⟩ := h.last_le
  refine ⟨⟨Nat.lt_of_le_of_lt hfront hext, ?_⟩, Nat.lt_of_le_of_lt hback hext, ?_⟩
  · exact Nat.lt_of_le_of_lt (g.below_le _) hword
  · rwa [hend]

/-- The parts begin as many pitches as the whole, and one more if the cut is not on the grid. -/
theorem pitchesIn_extent (h : whole.CutInto front back) (g : Grid) :
    g.pitchesIn (front.extent g) + g.pitchesIn (back.extent g) =
      g.pitchesIn (whole.extent g) + if g.pitch.toNat ∣ back.start.toNat then 0 else 1 := by
  -- the whole begins the pitches in front of the one that holds the cut, and then as the second
  -- part does; the first part begins the same, and then what is left of it up to the cut
  have hdiv := Nat.div_add_mod (front.extent g) g.pitch.toNat
  have hwhole : whole.extent g = g.pitch.toNat * (front.extent g / g.pitch.toNat) +
      back.extent g := by
    rw [h.extent_mod] at hdiv
    simp only [extent, h.start_eq, h.length_eq] at hdiv ⊢
    omega
  have hfront : g.pitchesIn (front.extent g) = front.extent g / g.pitch.toNat +
      g.pitchesIn (back.start.toNat % g.pitch.toNat) := by
    rw [← h.extent_mod, ← Grid.pitchesIn_mul_add, hdiv]
  rw [hwhole, hfront, Grid.pitchesIn_mul_add, Grid.pitchesIn_mod]
  omega

/-- The units of the whole are those of its parts, and the parts have as many between them, and one
more if the cut is not on the grid. -/
theorem exists_parts (h : whole.CutInto front back) {s : Stretch} (hs : whole.units g = .ok s) :
    ∃ s₁ s₂, front.units g = .ok s₁ ∧ back.units g = .ok s₂ ∧
      (∀ u, u ∈ s.toList ↔ u ∈ s₁.toList ∨ u ∈ s₂.toList) ∧
      s₁.remaining.toNat + s₂.remaining.toNat =
        s.remaining.toNat + if g.pitch.toNat ∣ back.start.toNat then 0 else 1 := by
  obtain ⟨⟨s₁, h₁⟩, s₂, h₂⟩ := h.exists_units ⟨s, hs⟩
  refine ⟨s₁, s₂, h₁, h₂, ?_, ?_⟩
  · intro u
    simp only [mem_units_iff hs, mem_units_iff h₁, mem_units_iff h₂, h.touches_iff, or_and_right,
      exists_or]
  · have hcount {a : Access} {t : Stretch} (ht : a.units g = .ok t) :
        t.remaining.toNat = g.pitchesIn (a.extent g) :=
      (Grid.count?_eq_some_iff.mp (count?_of_units ht)).2
    rw [hcount hs, hcount h₁, hcount h₂, h.pitchesIn_extent]

end CutInto

end Footprint.Access

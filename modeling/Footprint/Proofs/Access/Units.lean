import Footprint.Proofs.Grid.Rounding
import Footprint.Stretch
import Mathlib.Data.Finset.Card
import Mathlib.Order.Interval.Finset.Nat

/-!
# The units of an access are the grid points below its addresses

A stretch whose last unit is a word lists an arithmetic progression, and no step
of it wraps. The progression made for an access starts at the grid point below
its first address and is as long as the extended length begins pitches. Rounding
down every touched address, in the naturals and one at a time, gives the same
numbers: every touched unit is listed and no other.
-/

namespace Footprint

namespace Stretch

/-- The last unit still to come is a word. -/
def Addressable (s : Stretch) : Prop :=
  s.next.toNat + (s.remaining.toNat - 1) * s.stride.toNat < UInt64.size

/-- A stretch with units to come has a next one. -/
theorem exists_next? {s : Stretch} (h : 0 < s.remaining.toNat) :
    ∃ u t, s.next? = some (u, t) := by
  cases he : s.next? with
  | none =>
    rw [next?_eq_none_iff.mp he] at h
    exact absurd h (Nat.lt_irrefl 0)
  | some p => exact ⟨p.1, p.2, rfl⟩

/-- One step gives the next unit and keeps the stride; the address after it is exact
whenever a unit remains, and the last unit is the same word as before. -/
theorem next?_step {s t : Stretch} {u : UInt64} (hs : s.Addressable)
    (h : s.next? = some (u, t)) :
    u = s.next ∧ t.stride = s.stride ∧ t.remaining.toNat + 1 = s.remaining.toNat ∧
      (0 < t.remaining.toNat → t.next.toNat = s.next.toNat + s.stride.toNat) ∧
      t.Addressable := by
  have hlt := s.remaining.toNat_lt_size
  unfold next? at h
  split at h
  · exact nomatch h
  · rename_i h0
    have hpos : 0 < s.remaining.toNat :=
      Nat.pos_of_ne_zero fun he => h0 (UInt64.toNat_inj.mp he)
    split at h
    · rename_i h1
      cases h
      refine ⟨rfl, rfl, ?_, fun hr => absurd hr (Nat.lt_irrefl 0), ?_⟩
      · rw [h1]
        rfl
      · have hn := s.next.toNat_lt_size
        simpa only [Addressable, UInt64.toNat_zero, Nat.zero_sub, Nat.zero_mul, Nat.add_zero]
          using hn
    · rename_i h1
      cases h
      have hone : s.remaining.toNat ≠ 1 := fun he => h1 (UInt64.toNat_inj.mp he)
      have hle : (1 : UInt64) ≤ s.remaining := UInt64.le_iff_toNat_le.mpr hpos
      have hsub : (s.remaining - 1).toNat = s.remaining.toNat - 1 := UInt64.toNat_sub_of_le _ _ hle
      -- the second unit lies at or before the last one, so the sum is a word
      have hstride : s.stride.toNat ≤ (s.remaining.toNat - 1) * s.stride.toNat :=
        Nat.le_mul_of_pos_left _ (by omega)
      have hlast : s.next.toNat + s.stride.toNat < UInt64.size :=
        Nat.lt_of_le_of_lt (Nat.add_le_add_left hstride _) hs
      have hsum : (s.next + s.stride).toNat = s.next.toNat + s.stride.toNat := by
        rw [UInt64.toNat_add]
        exact Nat.mod_eq_of_lt hlast
      refine ⟨rfl, rfl, ?_, fun _ => hsum, ?_⟩
      · simp only [hsub]
        omega
      have hmul : (s.remaining.toNat - 1) * s.stride.toNat =
          (s.remaining.toNat - 1 - 1) * s.stride.toNat + s.stride.toNat := by
        rw [← Nat.succ_mul]
        congr 1
        omega
      unfold Addressable at hs ⊢
      simp only [hsum, hsub]
      omega

/-- Taking units walks along the arithmetic progression. -/
theorem map_toNat_take {s : Stretch} (hs : s.Addressable) {n : Nat}
    (hn : n ≤ s.remaining.toNat) :
    (s.take n).1.map UInt64.toNat = List.range' s.next.toNat n s.stride.toNat := by
  induction n generalizing s with
  | zero => rfl
  | succ n ih =>
    obtain ⟨u, t, h⟩ := exists_next? (s := s) (by omega)
    obtain ⟨rfl, hstride, hremaining, hnext, ht⟩ := next?_step hs h
    have htail := ih ht (by omega)
    rw [take_succ h, List.map_cons, List.range'_succ, htail, hstride]
    cases n with
    | zero => rfl
    | succ n => rw [hnext (by omega)]

/-- The units of a stretch are an arithmetic progression in the naturals. -/
theorem map_toNat_toList {s : Stretch} (hs : s.Addressable) :
    s.toList.map UInt64.toNat =
      List.range' s.next.toNat s.remaining.toNat s.stride.toNat :=
  map_toNat_take hs (Nat.le_refl _)

/-- A unit is listed exactly if it is one of the terms of the progression. -/
theorem mem_toList_iff {s : Stretch} (hs : s.Addressable) {u : UInt64} :
    u ∈ s.toList ↔ ∃ i < s.remaining.toNat, u.toNat = s.next.toNat + s.stride.toNat * i := by
  rw [← List.mem_range', ← map_toNat_toList hs, List.mem_map]
  constructor
  · intro hu
    exact ⟨u, hu, rfl⟩
  · rintro ⟨v, hv, he⟩
    rwa [← UInt64.toNat_inj.mp he]

end Stretch

namespace Grid

/-- The number of pitches that a length begins. -/
def pitchesIn (g : Grid) (n : Nat) : Nat :=
  n / g.pitch.toNat + if 0 < n % g.pitch.toNat then 1 else 0

/-- A pitch is begun exactly if its start lies inside the length. -/
theorem lt_pitchesIn_iff {g : Grid} {n i : Nat} :
    i < g.pitchesIn n ↔ g.pitch.toNat * i < n := by
  have hp := g.toNat_pitch_pos
  have hn := Nat.div_add_mod n g.pitch.toNat
  unfold pitchesIn
  constructor
  · intro h
    have hle : i ≤ n / g.pitch.toNat := by
      split at h <;> omega
    rcases Nat.lt_or_eq_of_le hle with hlt | rfl
    · have hmul := Nat.mul_le_mul_left g.pitch.toNat hlt
      rw [Nat.mul_succ] at hmul
      omega
    · split at h <;> omega
  · intro h
    by_cases hm : 0 < n % g.pitch.toNat
    · have hlt : i < n / g.pitch.toNat + 1 := by
        apply Nat.lt_of_mul_lt_mul_left (a := g.pitch.toNat)
        have hr := Nat.mod_lt n hp
        rw [Nat.mul_succ]
        omega
      rwa [if_pos hm]
    · have hlt : i < n / g.pitch.toNat := by
        apply Nat.lt_of_mul_lt_mul_left (a := g.pitch.toNat)
        omega
      rwa [if_neg hm]

/-- A length begins no more pitches than it has addresses. -/
theorem pitchesIn_le (g : Grid) (n : Nat) : g.pitchesIn n ≤ n := by
  apply Nat.le_of_not_lt
  intro h
  have hlt := lt_pitchesIn_iff.mp h
  have hle := Nat.le_mul_of_pos_left n g.toNat_pitch_pos
  omega

/-- Whole pitches in front of a length are begun each once. -/
theorem pitchesIn_mul_add (g : Grid) (q n : Nat) :
    g.pitchesIn (g.pitch.toNat * q + n) = q + g.pitchesIn n := by
  rw [pitchesIn, pitchesIn, Nat.mul_add_div g.toNat_pitch_pos, Nat.mul_add_mod, Nat.add_assoc]

/-- A remainder begins no pitch exactly on the grid, and one everywhere else. -/
theorem pitchesIn_mod (g : Grid) (n : Nat) :
    g.pitchesIn (n % g.pitch.toNat) = if g.pitch.toNat ∣ n then 0 else 1 := by
  simp only [pitchesIn, Nat.div_eq_of_lt (Nat.mod_lt n g.toNat_pitch_pos), Nat.mod_mod,
    Nat.zero_add, Nat.pos_iff_ne_zero, ne_eq, ite_not, Nat.dvd_iff_mod_eq_zero]

/-- Whether a remainder counts is the same for a word and for the number it holds. -/
theorem toNat_partial (g : Grid) (e : UInt64) :
    (if 0 < e % g.pitch then 1 else 0 : UInt64).toNat =
      if 0 < e.toNat % g.pitch.toNat then 1 else 0 := by
  simp only [UInt64.lt_iff_toNat_lt, UInt64.toNat_mod, UInt64.toNat_zero]
  split <;> rfl

/-- The quotient and one more for a remainder are the pitches begun, and their sum never wraps. -/
theorem toNat_div_add_partial (g : Grid) (e : UInt64) :
    (e / g.pitch + if 0 < e % g.pitch then 1 else 0).toNat = g.pitchesIn e.toNat := by
  have hlt := Nat.lt_of_le_of_lt (g.pitchesIn_le e.toNat) e.toNat_lt_size
  rw [UInt64.toNat_add, UInt64.toNat_div, g.toNat_partial]
  exact Nat.mod_eq_of_lt hlt

/-- The checked count is the number of pitches begun by the extended length. -/
theorem count?_eq_some_iff {g : Grid} {start length c : UInt64} :
    g.count? start length = some c ↔
      length.toNat + start.toNat % g.pitch.toNat < UInt64.size ∧
        c.toNat = g.pitchesIn (length.toNat + start.toNat % g.pitch.toNat) := by
  simp only [count?, Option.map_eq_some_iff, Word.add?_eq_some_iff, UInt64.toNat_mod]
  constructor
  · rintro ⟨e, he, rfl⟩
    rw [← he]
    exact ⟨e.toNat_lt_size, g.toNat_div_add_partial e⟩
  · rintro ⟨hlt, hc⟩
    refine ⟨.ofNat (length.toNat + start.toNat % g.pitch.toNat),
      UInt64.toNat_ofNat_of_lt' hlt, ?_⟩
    rw [← UInt64.toNat_inj, g.toNat_div_add_partial, UInt64.toNat_ofNat_of_lt' hlt, hc]

end Grid

namespace Access

/-- The length of an access when it is measured from the grid point below its start. -/
def extent (a : Access) (g : Grid) : Nat :=
  a.length.toNat + a.start.toNat % g.pitch.toNat

/-- An access begins at least one pitch. -/
theorem pitchesIn_extent_pos (a : Access) (g : Grid) : 0 < g.pitchesIn (a.extent g) := by
  have hl : 0 < a.length.toNat := UInt64.lt_iff_toNat_lt.mp a.length_pos
  rw [Grid.lt_pitchesIn_iff, Nat.mul_zero]
  exact Nat.add_pos_left hl _

/-- The end of an access is its extent away from the grid point below its start. -/
theorem below_start_add_extent (a : Access) (g : Grid) :
    g.below a.start.toNat + a.extent g = a.start.toNat + a.length.toNat := by
  have hle := Nat.mod_le a.start.toNat g.pitch.toNat
  unfold Grid.below extent
  omega

/-- The grid points below the touched addresses follow one another at the pitch. -/
theorem exists_touches_iff {a : Access} {g : Grid} {m : Nat} :
    (∃ n, a.Touches n ∧ g.below n = m) ↔
      ∃ i < g.pitchesIn (a.extent g), m = g.below a.start.toNat + g.pitch.toNat * i := by
  have hend := a.below_start_add_extent g
  constructor
  · rintro ⟨n, ⟨hstart, hlt⟩, rfl⟩
    obtain ⟨i, hi⟩ := Nat.le.dest (Nat.div_le_div_right (c := g.pitch.toNat) hstart)
    have hm : g.below n = g.below a.start.toNat + g.pitch.toNat * i := by
      rw [g.below_eq_mul_div n, g.below_eq_mul_div a.start.toNat, ← hi, Nat.mul_add]
    refine ⟨i, Grid.lt_pitchesIn_iff.mpr ?_, hm⟩
    have hle := g.below_le n
    omega
  · rintro ⟨i, hi, rfl⟩
    have hlt := Grid.lt_pitchesIn_iff.mp hi
    have hle := g.below_le a.start.toNat
    have hnear := g.lt_below_add_pitch a.start.toNat
    have hpos := g.toNat_pitch_pos
    -- the first term is below the start itself, every later one is touched
    refine ⟨max a.start.toNat (g.below a.start.toNat + g.pitch.toNat * i),
      ⟨Nat.le_max_left _ _, ?_⟩, Grid.below_eq_iff.mpr ⟨?_, Nat.le_max_right _ _, ?_⟩⟩
    · have hl : 0 < a.length.toNat := UInt64.lt_iff_toNat_lt.mp a.length_pos
      omega
    · exact Nat.dvd_add (g.pitch_dvd_below _) (Nat.dvd_mul_right _ _)
    · omega

/-- An access has as many distinct grid points below it as its extent begins pitches. -/
theorem card_image_below (a : Access) (g : Grid) :
    ((Finset.Ico a.start.toNat (a.start.toNat + a.length.toNat)).image g.below).card =
      g.pitchesIn (a.extent g) := by
  have himage : (Finset.Ico a.start.toNat (a.start.toNat + a.length.toNat)).image g.below =
      (Finset.range (g.pitchesIn (a.extent g))).image
        fun i => g.below a.start.toNat + g.pitch.toNat * i := by
    ext m
    have h := exists_touches_iff (a := a) (g := g) (m := m)
    simpa only [Finset.mem_image, Finset.mem_Ico, Finset.mem_range, Touches,
      eq_comm (a := m)] using h
  rw [himage, Finset.card_image_of_injective, Finset.card_range]
  intro i j he
  exact Nat.eq_of_mul_eq_mul_left g.toNat_pitch_pos (Nat.add_left_cancel he)

/-- The units of an access can be addressed exactly if the extent and the last unit are
words; the stretch then starts below the access and has one unit for each pitch begun. -/
theorem units?_eq_some_iff {a : Access} {g : Grid} {s : Stretch} :
    a.units? g = some s ↔
      a.extent g < UInt64.size ∧
        g.below a.start.toNat + (g.pitchesIn (a.extent g) - 1) * g.pitch.toNat < UInt64.size ∧
        s.next = g.floor a.start ∧ s.remaining.toNat = g.pitchesIn (a.extent g) ∧
        s.stride = g.pitch := by
  have hpos := a.pitchesIn_extent_pos g
  have hsub {c : UInt64} (hc : c.toNat = g.pitchesIn (a.extent g)) :
      (c - 1).toNat = g.pitchesIn (a.extent g) - 1 := by
    rw [← hc]
    apply UInt64.toNat_sub_of_le
    rw [UInt64.le_iff_toNat_le, hc]
    exact hpos
  simp only [units?, Option.bind_eq_bind, Option.pure_def, Option.bind_eq_some_iff,
    Grid.count?_eq_some_iff, Word.mul?_eq_some_iff, Word.add?_eq_some_iff, Option.some.injEq]
  constructor
  · rintro ⟨c, ⟨hext, hc⟩, r, hr, l, hl, rfl⟩
    refine ⟨hext, ?_, rfl, hc, rfl⟩
    rw [← hsub hc, ← hr, ← g.toNat_floor_eq_below, ← hl]
    exact l.toNat_lt_size
  · rintro ⟨hext, hlast, hnext, hc, hstride⟩
    have hreach := Nat.lt_of_le_of_lt (Nat.le_add_left _ _) hlast
    refine ⟨s.remaining, ⟨hext, hc⟩, .ofNat ((g.pitchesIn (a.extent g) - 1) * g.pitch.toNat),
      ?_, .ofNat (g.below a.start.toNat + (g.pitchesIn (a.extent g) - 1) * g.pitch.toNat), ?_, ?_⟩
    · rw [hsub hc, UInt64.toNat_ofNat_of_lt' hreach]
    · rw [UInt64.toNat_ofNat_of_lt' hlast, UInt64.toNat_ofNat_of_lt' hreach,
        g.toNat_floor_eq_below]
    · rw [← hnext, ← hstride]

/-- The last unit of an access is the one below its last address. -/
theorem below_last (a : Access) (g : Grid) :
    g.below (a.start.toNat + a.length.toNat - 1) =
      g.below a.start.toNat + (g.pitchesIn (a.extent g) - 1) * g.pitch.toNat := by
  have hpos := a.pitchesIn_extent_pos g
  have hend := a.below_start_add_extent g
  have hlast := Grid.lt_pitchesIn_iff.mp (Nat.sub_one_lt_of_lt hpos)
  have hbeyond : a.extent g ≤ g.pitch.toNat * g.pitchesIn (a.extent g) :=
    Nat.le_of_not_lt fun h => Nat.lt_irrefl _ (Grid.lt_pitchesIn_iff.mpr h)
  have hstep : g.pitch.toNat * g.pitchesIn (a.extent g) =
      g.pitch.toNat * (g.pitchesIn (a.extent g) - 1) + g.pitch.toNat := by
    rw [← Nat.mul_succ, Nat.succ_eq_add_one, Nat.sub_add_cancel hpos]
  rw [Nat.mul_comm _ g.pitch.toNat, Grid.below_eq_iff]
  refine ⟨Nat.dvd_add (g.pitch_dvd_below _) (Nat.dvd_mul_right _ _), ?_, ?_⟩ <;> omega

/-- The units of an access are found exactly if they can be addressed. -/
theorem units_eq_ok_iff {a : Access} {g : Grid} {s : Stretch} :
    a.units g = .ok s ↔ a.units? g = some s := by
  unfold units
  cases a.units? g with
  | none => simp only [reduceCtorEq]
  | some t => simp only [Except.ok.injEq, Option.some.injEq]

/-- An access is spread exactly if its extent and the unit below its last address are words. -/
theorem exists_units_iff {a : Access} {g : Grid} :
    (∃ s, a.units g = .ok s) ↔
      a.extent g < UInt64.size ∧
        g.below (a.start.toNat + a.length.toNat - 1) < UInt64.size := by
  simp only [units_eq_ok_iff, units?_eq_some_iff, below_last]
  constructor
  · rintro ⟨s, hext, hlast, _⟩
    exact ⟨hext, hlast⟩
  · rintro ⟨hext, hlast⟩
    have hcount := Nat.lt_of_le_of_lt (g.pitchesIn_le (a.extent g)) hext
    exact ⟨⟨g.floor a.start, .ofNat (g.pitchesIn (a.extent g)), g.pitch⟩, hext, hlast, rfl,
      UInt64.toNat_ofNat_of_lt' hcount, rfl⟩

/-- On a grid whose pitch divides the number of words, an access is spread exactly if it stays
below the greatest word, or ends with it and does not start within the first pitch. -/
theorem exists_units_iff_of_dvd {a : Access} {g : Grid} (h : g.pitch.toNat ∣ UInt64.size) :
    (∃ s, a.units g = .ok s) ↔
      a.start.toNat + a.length.toNat < UInt64.size ∨
        (a.start.toNat + a.length.toNat = UInt64.size ∧ g.pitch ≤ a.start) := by
  have hl : 0 < a.length.toNat := UInt64.lt_iff_toNat_lt.mp a.length_pos
  have hlast : g.below (a.start.toNat + a.length.toNat - 1) < UInt64.size ↔
      a.start.toNat + a.length.toNat ≤ UInt64.size := by
    rw [← Nat.not_le, Grid.le_below_iff h]
    omega
  rw [exists_units_iff, hlast, extent, UInt64.le_iff_toNat_le]
  by_cases hstart : a.start.toNat < g.pitch.toNat
  · -- the grid point below the start is zero, so the extent is the end itself
    rw [Nat.mod_eq_of_lt hstart]
    omega
  · have hmod := Nat.mod_lt a.start.toNat g.toNat_pitch_pos
    omega

/-- A refusal repeats the numbers of the access. -/
theorem eq_of_units_eq_error {a : Access} {g : Grid} {e : Overflow}
    (h : a.units g = .error e) : e = ⟨a.start, a.length⟩ := by
  unfold units at h
  split at h
  · exact nomatch h
  · cases h
    rfl

/-- The stretch made for an access can be walked to its last unit. -/
theorem addressable_of_units {a : Access} {g : Grid} {s : Stretch} (h : a.units g = .ok s) :
    s.Addressable := by
  obtain ⟨_, hlast, hnext, hremaining, hstride⟩ := units?_eq_some_iff.mp (units_eq_ok_iff.mp h)
  rwa [Stretch.Addressable, hnext, hremaining, hstride, g.toNat_floor_eq_below]

/-- The count of an access is the number of units of its stretch. -/
theorem count?_of_units {a : Access} {g : Grid} {s : Stretch} (h : a.units g = .ok s) :
    g.count? a.start a.length = some s.remaining := by
  obtain ⟨hext, _, _, hremaining, _⟩ := units?_eq_some_iff.mp (units_eq_ok_iff.mp h)
  exact Grid.count?_eq_some_iff.mpr ⟨hext, hremaining⟩

/-- Every touched unit is listed and no other. -/
theorem mem_units_iff {a : Access} {g : Grid} {s : Stretch} (h : a.units g = .ok s)
    {u : UInt64} : u ∈ s.toList ↔ ∃ n, a.Touches n ∧ g.below n = u.toNat := by
  obtain ⟨_, _, hnext, hremaining, hstride⟩ := units?_eq_some_iff.mp (units_eq_ok_iff.mp h)
  rw [Stretch.mem_toList_iff (addressable_of_units h), exists_touches_iff, hnext, hremaining,
    hstride, g.toNat_floor_eq_below]

/-- The unit of a touched address is a word. -/
theorem below_lt_size_of_units {a : Access} {g : Grid} {s : Stretch} (h : a.units g = .ok s)
    {n : Nat} (hn : a.Touches n) : g.below n < UInt64.size := by
  obtain ⟨_, hlast, _⟩ := units?_eq_some_iff.mp (units_eq_ok_iff.mp h)
  obtain ⟨i, hi, he⟩ := exists_touches_iff.mp ⟨n, hn, rfl⟩
  have hmul := Nat.mul_le_mul_left g.pitch.toNat (Nat.le_sub_one_of_lt hi)
  rw [Nat.mul_comm _ (g.pitchesIn _ - 1)] at hmul
  omega

end Access

end Footprint

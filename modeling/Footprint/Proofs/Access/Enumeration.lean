import Footprint.Proofs.Access.Units

/-!
# Walking along the units of an access

A stretch gives its units one at a time. Taking some and then some more is taking them
all at once, so the state after any number of steps is known from the progression: the
first units have been given, the rest remain, and while two remain the address of the
second is a word. A walk to the end thus lists every touched unit once, in order and at
the pitch of the grid, as many as the closed form counts.
-/

namespace Footprint

namespace Stretch

/-- Taking units in two goes is taking them at once. -/
theorem take_add (s : Stretch) (m n : Nat) :
    s.take (m + n) = ((s.take m).1 ++ ((s.take m).2.take n).1, ((s.take m).2.take n).2) := by
  induction m generalizing s with
  | zero => rw [Nat.zero_add, take_zero, List.nil_append]
  | succ m ih =>
    cases h : s.next? with
    | none => rw [take_of_next?_eq_none h, take_of_next?_eq_none h, take_of_next?_eq_none h,
        List.nil_append]
    | some p =>
      obtain ⟨u, t⟩ := p
      rw [Nat.add_right_comm, take_succ h, take_succ h, ih t, List.cons_append]

/-- After some steps the stretch can still be walked, and has as many units less. -/
theorem addressable_take {s : Stretch} (hs : s.Addressable) (n : Nat) :
    (s.take n).2.Addressable ∧ (s.take n).2.remaining.toNat = s.remaining.toNat - n := by
  induction n generalizing s with
  | zero => exact ⟨hs, rfl⟩
  | succ n ih =>
    cases h : s.next? with
    | none =>
      have hzero : s.remaining.toNat = 0 := congrArg UInt64.toNat (next?_eq_none_iff.mp h)
      rw [take_of_next?_eq_none h, hzero, Nat.zero_sub]
      exact ⟨hs, rfl⟩
    | some p =>
      obtain ⟨u, t⟩ := p
      obtain ⟨-, -, hremaining, -, ht⟩ := next?_step hs h
      obtain ⟨hleft, hcount⟩ := ih ht
      rw [take_succ h]
      refine ⟨hleft, hcount.trans ?_⟩
      omega

/-- A stretch lists as many units as remain. -/
theorem length_toList {s : Stretch} (hs : s.Addressable) :
    s.toList.length = s.remaining.toNat := by
  rw [← List.length_map UInt64.toNat, map_toNat_toList hs, List.length_range']

/-- After some steps nothing comes next exactly if all units have been given. -/
theorem next?_take_eq_none_iff {s : Stretch} (hs : s.Addressable) (n : Nat) :
    (s.take n).2.next? = none ↔ s.toList.length ≤ n := by
  rw [next?_eq_none_iff, ← UInt64.toNat_inj, (addressable_take hs n).2, length_toList hs,
    UInt64.toNat_zero]
  exact Nat.sub_eq_zero_iff_le

/-- The first steps give the first units. -/
theorem fst_take {s : Stretch} (hs : s.Addressable) (n : Nat) :
    (s.take n).1 = s.toList.take n := by
  rcases Nat.le_total n s.remaining.toNat with hle | hle
  · have hlength : (s.take n).1.length = n := by
      rw [← List.length_map UInt64.toNat, map_toNat_take hs hle, List.length_range']
    obtain ⟨k, hk⟩ := Nat.le.dest hle
    rw [toList, ← hk, take_add, List.take_left' hlength]
  · -- the steps after the last unit give nothing
    have hnone : (s.take s.remaining.toNat).2.next? = none := by
      rw [next?_take_eq_none_iff hs, length_toList hs]
    obtain ⟨k, rfl⟩ := Nat.le.dest hle
    rw [take_add, take_of_next?_eq_none hnone, List.append_nil,
      List.take_of_length_le (by rw [length_toList hs]; exact hle)]
    rfl

/-- While another unit remains after the next one, its address is a word. -/
theorem next_add_stride_lt_size {s : Stretch} (hs : s.Addressable) (h : 1 < s.remaining) :
    s.next.toNat + s.stride.toNat < UInt64.size := by
  have hone : 1 < s.remaining.toNat := UInt64.lt_iff_toNat_lt.mp h
  have hstride : s.stride.toNat ≤ (s.remaining.toNat - 1) * s.stride.toNat :=
    Nat.le_mul_of_pos_left _ (by omega)
  exact Nat.lt_of_le_of_lt (Nat.add_le_add_left hstride _) hs

end Stretch

namespace Access

/-- The units of an access start at the grid point below its start and lie a pitch apart. -/
theorem map_toNat_units {a : Access} {g : Grid} {s : Stretch} (h : a.units g = .ok s) :
    s.toList.map UInt64.toNat =
      List.range' (g.below a.start.toNat) s.remaining.toNat g.pitch.toNat := by
  obtain ⟨_, _, hnext, _, hstride⟩ := units?_eq_some_iff.mp (units_eq_ok_iff.mp h)
  rw [Stretch.map_toNat_toList (addressable_of_units h), hnext, hstride, g.toNat_floor_eq_below]

/-- Walking along the units of an access, so many steps give so many of them, until nothing comes
next, and no step wraps. The units are listed in order from the grid point below the start, each
one pitch after the one before it, as many as are counted, and they are the grid points below the
touched addresses: every touched unit once and no other. -/
theorem units_enumerate {a : Access} {g : Grid} {s : Stretch} (h : a.units g = .ok s) :
    (∀ n, (s.take n).1 = s.toList.take n ∧
        ((s.take n).2.next? = none ↔ s.toList.length ≤ n) ∧
        (1 < (s.take n).2.remaining →
          (s.take n).2.next.toNat + (s.take n).2.stride.toNat < UInt64.size)) ∧
      s.toList.Pairwise (· < ·) ∧
      s.toList.head?.map UInt64.toNat = some (g.below a.start.toNat) ∧
      s.toList.IsChain (fun u v => v.toNat = u.toNat + g.pitch.toNat) ∧
      (g.count? a.start a.length).map UInt64.toNat = some s.toList.length ∧
      ∀ m, m ∈ s.toList.map UInt64.toNat ↔ ∃ n, a.Touches n ∧ g.below n = m := by
  have hs := addressable_of_units h
  have hunits := map_toNat_units h
  have hpos : s.remaining.toNat ≠ 0 := by
    obtain ⟨_, _, _, hremaining, _⟩ := units?_eq_some_iff.mp (units_eq_ok_iff.mp h)
    rw [hremaining]
    exact Nat.ne_of_gt (a.pitchesIn_extent_pos g)
  refine ⟨fun n => ⟨Stretch.fst_take hs n, Stretch.next?_take_eq_none_iff hs n,
    Stretch.next_add_stride_lt_size (Stretch.addressable_take hs n).1⟩, ?_, ?_, ?_, ?_, ?_⟩
  · have hincreasing := List.pairwise_lt_range' (s := g.below a.start.toNat)
      (n := s.remaining.toNat) g.pitch.toNat g.toNat_pitch_pos
    rw [← hunits, List.pairwise_map] at hincreasing
    exact hincreasing.imp UInt64.lt_iff_toNat_lt.mpr
  · obtain ⟨count, hcount⟩ := Nat.exists_eq_succ_of_ne_zero hpos
    rw [← List.head?_map, hunits, hcount, List.range'_succ, List.head?_cons]
  · have hchain := List.isChain_range' (g.below a.start.toNat) s.remaining.toNat g.pitch.toNat
    rwa [← hunits, List.isChain_map] at hchain
  · rw [count?_of_units h, Option.map_some, Stretch.length_toList hs]
  · intro m
    rw [List.mem_map]
    constructor
    · rintro ⟨u, hu, rfl⟩
      exact (mem_units_iff h).mp hu
    · rintro ⟨n, hn, rfl⟩
      have hword := UInt64.toNat_ofNat_of_lt' (below_lt_size_of_units h hn)
      exact ⟨.ofNat (g.below n), (mem_units_iff h).mpr ⟨n, hn, hword.symm⟩, hword⟩

/-- Units of six addresses up to the last one that is a word; the access itself ends beyond it. -/
theorem units_enumerate_of_last_unit :
    let a : Access := ⟨18446744073709551603, 15, by decide⟩
    let g : Grid := ⟨6, by decide⟩
    let s : Stretch := ⟨18446744073709551600, 3, 6⟩
    a.units g = .ok s ∧
      s.toList = [18446744073709551600, 18446744073709551606, 18446744073709551612] ∧
      (s.take 3).2.next? = none ∧ g.count? a.start a.length = some 3 ∧
      18446744073709551612 ∈ s.toList.map UInt64.toNat := by
  intro a g s
  have h : a.units g = .ok s := by decide +kernel
  have htouched : a.Touches 18446744073709551617 := by
    unfold Touches
    decide
  obtain ⟨hwalk, _, _, _, _, hmem⟩ := units_enumerate h
  refine ⟨h, by decide +kernel, (hwalk 3).2.1.mpr (by decide +kernel), by decide +kernel, ?_⟩
  exact (hmem _).mpr ⟨18446744073709551617, htouched, by decide +kernel⟩

end Access

end Footprint

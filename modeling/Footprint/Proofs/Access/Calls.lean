import Footprint.Proofs.Access.Enumeration
import Footprint.Proofs.Access.Overflow

/-!
# Any number of calls for the next unit

A stretch can be asked for its next unit more often than it has units. The calls past the end
get no answer and change nothing, so the state after any number of calls is the one after as many
steps of a walk. No step moves the last unit, and the next address never passes it: the address
stops one call before the units run out. With strict operations in place of those without a
check, a call therefore still has a result, and the same one.
-/

namespace Footprint

namespace Stretch

/-- The answer to a call for the next unit, and the stretch after it. -/
def call (s : Stretch) : Option UInt64 × Stretch :=
  match s.next? with
  | none => (none, s)
  | some (u, t) => (some u, t)

/-- The answers to so many calls in order, and the stretch after them. -/
def calls (s : Stretch) : Nat → List (Option UInt64) × Stretch
  | 0 => ([], s)
  | k + 1 => (s.call.1 :: (s.call.2.calls k).1, (s.call.2.calls k).2)

/-- A call with a strict operation wherever it has one without a check: nothing if such an operation
fails. The remaining units are counted down first, and the address moves only if one is left. -/
def strictCall? (s : Stretch) : Option (Option UInt64 × Stretch) := do
  if s.remaining = 0 then return (none, s)
  let remaining ← Word.sub? s.remaining 1
  if remaining = 0 then return (some s.next, { s with remaining })
  let next ← Word.add? s.next s.stride
  return (some s.next, { s with next, remaining })

/-- The last unit still to come, or the last one given. -/
def last (s : Stretch) : Nat :=
  s.next.toNat + (s.remaining.toNat - 1) * s.stride.toNat

variable {s : Stretch}

/-- A call on a finished stretch is not answered and changes nothing, and so are all after it. -/
theorem calls_of_next?_eq_none (h : s.next? = none) (k : Nat) :
    s.calls k = (List.replicate k none, s) := by
  have hcall : s.call = (none, s) := by rw [call, h]
  induction k with
  | zero => rfl
  | succ k ih => rw [calls, hcall, ih, List.replicate_succ]

/-- A call is not answered exactly if there is no next unit. -/
theorem call_fst_eq_none_iff : s.call.1 = none ↔ s.next? = none := by
  unfold call
  cases s.next? <;> simp only [reduceCtorEq]

/-- Calls are answered with the units of a walk as long as there are any, and then no more. -/
theorem calls_eq_take (hs : s.Addressable) (k : Nat) :
    s.calls k =
      ((s.take k).1.map some ++ List.replicate (k - s.remaining.toNat) none, (s.take k).2) := by
  induction k generalizing s with
  | zero => rw [Nat.zero_sub]; rfl
  | succ k ih =>
    cases h : s.next? with
    | none =>
      have hzero : s.remaining.toNat = 0 := congrArg UInt64.toNat (next?_eq_none_iff.mp h)
      rw [calls_of_next?_eq_none h, take_of_next?_eq_none h, hzero, Nat.sub_zero, List.map_nil,
        List.nil_append]
    | some p =>
      obtain ⟨u, t⟩ := p
      obtain ⟨-, -, hremaining, -, ht⟩ := next?_step hs h
      have hcall : s.call = (some u, t) := by rw [call, h]
      rw [calls, hcall, ih ht, take_succ h, ← hremaining, Nat.add_sub_add_right, List.map_cons,
        List.cons_append]

/-- So many steps give so many terms of the progression, or all of them. -/
theorem map_toNat_take_min (hs : s.Addressable) (k : Nat) :
    (s.take k).1.map UInt64.toNat =
      List.range' s.next.toNat (min k s.remaining.toNat) s.stride.toNat := by
  rcases Nat.le_total k s.remaining.toNat with hle | hle
  · rw [Nat.min_eq_left hle, map_toNat_take hs hle]
  · have hall : s.toList.length ≤ k := by rwa [length_toList hs]
    rw [Nat.min_eq_right hle, fst_take hs, List.take_of_length_le hall, map_toNat_toList hs]

/-- The address stands still when the last unit is given. -/
theorem next_of_remaining_eq_zero {t : Stretch} {u : UInt64} (h : s.next? = some (u, t))
    (hzero : t.remaining.toNat = 0) (hs : s.Addressable) : t.next = s.next := by
  obtain ⟨-, -, hremaining, -, -⟩ := next?_step hs h
  have hone : s.remaining = 1 := by
    rw [← UInt64.toNat_inj, ← hremaining, hzero]
    rfl
  rw [next?, if_neg (by rw [hone]; decide), if_pos hone] at h
  cases h
  rfl

/-- No step moves the last unit. -/
theorem last_of_next? {t : Stretch} {u : UInt64} (hs : s.Addressable)
    (h : s.next? = some (u, t)) : t.last = s.last := by
  obtain ⟨-, hstride, hremaining, hnext, -⟩ := next?_step hs h
  rw [last, last, ← hremaining, hstride, Nat.add_sub_cancel]
  -- the address moves on by the unit that the count loses, and stands still when the last is given
  cases hleft : t.remaining.toNat with
  | zero => rw [next_of_remaining_eq_zero h hleft hs, Nat.zero_sub]
  | succ n =>
    rw [hnext (hleft ▸ Nat.succ_pos n), Nat.add_sub_cancel, Nat.succ_mul]
    omega

/-- The last unit is the same after any number of steps. -/
theorem last_take (hs : s.Addressable) (k : Nat) : (s.take k).2.last = s.last := by
  induction k generalizing s with
  | zero => rfl
  | succ k ih =>
    cases h : s.next? with
    | none => rw [take_of_next?_eq_none h]
    | some p =>
      obtain ⟨u, t⟩ := p
      obtain ⟨-, -, -, -, ht⟩ := next?_step hs h
      rw [take_succ h, ih ht, last_of_next? hs h]

/-- The next address never passes the last unit. -/
theorem next_le_last (s : Stretch) : s.next.toNat ≤ s.last := Nat.le_add_right _ _

/-- Counting down never falls below zero while a unit is left. -/
theorem sub?_remaining (h : s.remaining ≠ 0) :
    Word.sub? s.remaining 1 = some (s.remaining - 1) := by
  refine if_pos (UInt64.le_iff_toNat_le.mpr ?_)
  exact Nat.pos_of_ne_zero fun hzero => h (UInt64.toNat_inj.mp hzero)

/-- The address of the unit after the next one never wraps. -/
theorem add?_stride (hs : s.Addressable) (h : 1 < s.remaining) :
    Word.add? s.next s.stride = some (s.next + s.stride) := by
  rw [Word.add?_eq_some_iff, UInt64.toNat_add]
  exact Nat.mod_eq_of_lt (next_add_stride_lt_size hs h)

/-- The strict call is the call. -/
theorem strictCall?_eq (hs : s.Addressable) : s.strictCall? = some s.call := by
  simp only [strictCall?, call, next?]
  by_cases hzero : s.remaining = 0
  · rw [if_pos hzero, if_pos hzero]
    rfl
  rw [if_neg hzero, if_neg hzero, sub?_remaining hzero, Option.bind_eq_bind, Option.bind_some]
  by_cases hone : s.remaining = 1
  · rw [if_pos hone, hone]
    rfl
  have hmore : 1 < s.remaining.toNat := by
    rw [← UInt64.toNat_inj] at hzero hone
    exact Nat.one_lt_iff_ne_zero_and_ne_one.mpr ⟨hzero, hone⟩
  have hleft : s.remaining - 1 ≠ 0 := by
    have hle : 1 ≤ s.remaining := UInt64.le_iff_toNat_le.mpr (Nat.le_of_lt hmore)
    rw [ne_eq, ← UInt64.toNat_inj, UInt64.toNat_sub_of_le _ _ hle]
    exact Nat.sub_ne_zero_of_lt hmore
  rw [if_neg hone, if_neg hleft, add?_stride hs (UInt64.lt_iff_toNat_lt.mpr hmore)]
  rfl

end Stretch

namespace Access

variable {a : Access} {g : Grid} {s : Stretch}

/-- The last unit of a stretch made for an access is the one below the last address. -/
theorem last_of_units (h : a.units g = .ok s) :
    s.last = g.below (a.start.toNat + a.length.toNat - 1) := by
  obtain ⟨_, _, hnext, hremaining, hstride⟩ := units?_eq_some_iff.mp (units_eq_ok_iff.mp h)
  rw [below_last, Stretch.last, hnext, hremaining, hstride, g.toNat_floor_eq_below]

/-- After so many calls for the next unit of an access, the units have been given in order from the
grid point below the start, each one pitch after the one before it, and every call after the last
unit has got none. As many units remain as have not been given, both bounds on them are that
number, and every unit given is a grid point. The next address has not passed the last unit, which
is a word, so the next call goes through with strict operations; and if it gets no unit, neither
does any call after it. -/
theorem calls_of_units (h : a.units g = .ok s) (k : Nat) :
    g.count? a.start a.length = some s.remaining ∧
      (s.calls k).1.map (Option.map UInt64.toNat) =
        (List.range' (g.below a.start.toNat) (min k s.remaining.toNat) g.pitch.toNat).map some ++
          List.replicate (k - s.remaining.toNat) none ∧
      (s.calls k).2.remaining.toNat = s.remaining.toNat - min k s.remaining.toNat ∧
      (s.calls k).2.bounds = ((s.calls k).2.remaining, some (s.calls k).2.remaining) ∧
      (∀ u, some u ∈ (s.calls k).1 → g.pitch.toNat ∣ u.toNat) ∧
      (s.calls k).2.next.toNat ≤ g.below (a.start.toNat + a.length.toNat - 1) ∧
      g.below (a.start.toNat + a.length.toNat - 1) < UInt64.size ∧
      (s.calls k).2.strictCall? = some (s.calls k).2.call ∧
      ((s.calls k).2.call.1 = none →
        ∀ m, (s.calls k).2.calls m = (List.replicate m none, (s.calls k).2)) := by
  have hs := addressable_of_units h
  obtain ⟨hleft, hcount⟩ := Stretch.addressable_take hs k
  have hgiven : (s.take k).1.map UInt64.toNat =
      List.range' (g.below a.start.toNat) (min k s.remaining.toNat) g.pitch.toNat := by
    obtain ⟨_, _, hnext, _, hstride⟩ := units?_eq_some_iff.mp (units_eq_ok_iff.mp h)
    rw [Stretch.map_toNat_take_min hs, hnext, hstride, g.toNat_floor_eq_below]
  rw [Stretch.calls_eq_take hs, ← last_of_units h, ← hgiven]
  refine ⟨count?_of_units h, ?_, ?_, rfl, ?_, ?_, hs, Stretch.strictCall?_eq hleft, ?_⟩
  · rw [List.map_append, List.map_map, List.map_map, List.map_replicate, Option.map_none]
    rfl
  · rw [hcount]
    omega
  · intro u hu
    have hmem : u ∈ s.toList.take k := by
      simpa only [Stretch.fst_take hs, List.mem_append, List.mem_map, Option.some.injEq,
        exists_eq_right, List.mem_replicate, reduceCtorEq, and_false, or_false] using hu
    obtain ⟨n, _, hn⟩ := (mem_units_iff h).mp (List.mem_of_mem_take hmem)
    rw [← hn]
    exact g.pitch_dvd_below n
  · rw [← Stretch.last_take hs k]
    exact Stretch.next_le_last _
  · intro hnone
    exact Stretch.calls_of_next?_eq_none (Stretch.call_fst_eq_none_iff.mp hnone)

/-- Five calls for three units, the last of which is the greatest grid point that is a word. -/
theorem calls_of_units_past_last_unit :
    let a : Access := ⟨18446744073709551603, 15, by decide⟩
    let g : Grid := ⟨6, by decide⟩
    let s : Stretch := ⟨18446744073709551600, 3, 6⟩
    a.units g = .ok s ∧
      (s.calls 5).1.map (Option.map UInt64.toNat) =
        [some 18446744073709551600, some 18446744073709551606, some 18446744073709551612,
          none, none] ∧
      (s.calls 5).2.remaining.toNat = 0 ∧
      (s.calls 5).2.next.toNat ≤ 18446744073709551612 ∧
      (s.calls 5).2.strictCall? = some (s.calls 5).2.call ∧
      (s.calls 5).2.call.1 = none ∧
      ∀ m, (s.calls 5).2.calls m = (List.replicate m none, (s.calls 5).2) := by
  intro a g s
  have h : a.units g = .ok s := by decide +kernel
  have hnone : (s.calls 5).2.call.1 = none := by decide +kernel
  obtain ⟨_, hanswers, hremaining, _, _, hnext, _, hstrict, hfinished⟩ := calls_of_units h 5
  exact ⟨h, hanswers.trans (by decide +kernel), hremaining.trans (by decide +kernel),
    hnext.trans (by decide +kernel), hstrict, hnone, hfinished hnone⟩

end Access

end Footprint

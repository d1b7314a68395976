import Footprint.Proofs.Tally.Marks

/-!
# Histories of a tally

A tally is asked to take one access after another, and some of them are refused.
A refused access changes nothing, so the tally at the end is that of the accesses
taken, in their order; it has seen the marks of these and no other, and counts
exactly them. Whether an access is taken does not depend on the calls before it.
-/

namespace Footprint.Tally

/-- The answer to one call, and the tally after it. -/
def attempt (t : Tally) (a : Access) : Except Access.Overflow Unit × Tally :=
  (observe a).run.run t

/-- The tally after all calls, whatever their answers. -/
def attemptAll (t : Tally) (calls : List Access) : Tally :=
  calls.foldl (fun t a => (t.attempt a).2) t

/-- The accesses whose calls were answered without a refusal. -/
def taken (t : Tally) : List Access → List Access
  | [] => []
  | a :: rest =>
    match t.attempt a with
    | (.ok _, t) => a :: taken t rest
    | (.error _, t) => taken t rest

/-- Taking in place answers as taking does, and keeps the old tally after a refusal. -/
theorem attempt_eq_add (t : Tally) (a : Access) :
    t.attempt a =
      match t.add a with
      | .ok t' => (.ok (), t')
      | .error e => (.error e, t) := by
  have hget : ∀ m : Tally → ExceptT Access.Overflow (StateM Tally) Unit,
      (get >>= m).run.run t = (m t).run.run t := fun _ => rfl
  rw [attempt, observe, hget, add]
  cases a.units t.units <;> rfl

/-- An access that can be spread is taken. -/
theorem attempt_of_ok {t : Tally} {a : Access} {s : Stretch} (h : a.units t.units = .ok s) :
    t.attempt a = (.ok (), t.take s) := by
  rw [attempt_eq_add, add, h]
  rfl

/-- An access that cannot be spread is refused, and the tally stays as it was. -/
theorem attempt_of_error {t : Tally} {a : Access} {e : Access.Overflow}
    (h : a.units t.units = .error e) : t.attempt a = (.error e, t) := by
  rw [attempt_eq_add, add, h]
  rfl

/-- A call is answered by the access and the unit grid alone. -/
theorem attempt_fst (t : Tally) (a : Access) :
    (t.attempt a).1 = (a.units t.units).map fun _ => () := by
  cases h : a.units t.units with
  | ok s => rw [attempt_of_ok h]; rfl
  | error e => rw [attempt_of_error h]; rfl

/-- No call changes the unit grid. -/
@[simp] theorem units_attempt (t : Tally) (a : Access) : (t.attempt a).2.units = t.units := by
  cases h : a.units t.units with
  | ok s => rw [attempt_of_ok h]; rfl
  | error e => rw [attempt_of_error h]

/-- No call changes the block grid. -/
@[simp] theorem blocks_attempt (t : Tally) (a : Access) : (t.attempt a).2.blocks = t.blocks := by
  cases h : a.units t.units with
  | ok s => rw [attempt_of_ok h]; rfl
  | error e => rw [attempt_of_error h]

@[simp] theorem units_attemptAll (t : Tally) (calls : List Access) :
    (t.attemptAll calls).units = t.units := by
  induction calls generalizing t with
  | nil => rfl
  | cons a rest ih => rw [attemptAll, List.foldl_cons, ← attemptAll, ih, units_attempt]

@[simp] theorem blocks_attemptAll (t : Tally) (calls : List Access) :
    (t.attemptAll calls).blocks = t.blocks := by
  induction calls generalizing t with
  | nil => rfl
  | cons a rest ih => rw [attemptAll, List.foldl_cons, ← attemptAll, ih, blocks_attempt]

theorem attemptAll_cons (t : Tally) (a : Access) (rest : List Access) :
    t.attemptAll (a :: rest) = (t.attempt a).2.attemptAll rest := rfl

theorem taken_cons_of_ok {t : Tally} {a : Access} {s : Stretch} (h : a.units t.units = .ok s)
    (rest : List Access) : t.taken (a :: rest) = a :: (t.take s).taken rest := by
  rw [taken, attempt_of_ok h]

theorem taken_cons_of_error {t : Tally} {a : Access} {e : Access.Overflow}
    (h : a.units t.units = .error e) (rest : List Access) :
    t.taken (a :: rest) = t.taken rest := by
  rw [taken, attempt_of_error h]

/-- A history extends the account by the accesses taken. -/
theorem AccountsFor.attemptAll {t : Tally} {as : List Access} (h : t.AccountsFor as)
    (calls : List Access) : (t.attemptAll calls).AccountsFor (as ++ t.taken calls) := by
  induction calls generalizing t as with
  | nil => rwa [taken, List.append_nil]
  | cons a rest ih =>
    cases hs : a.units t.units with
    | ok s =>
      have hrest := ih (h.take hs)
      rwa [attemptAll_cons, attempt_of_ok hs, taken_cons_of_ok hs, List.append_cons]
    | error e =>
      rw [attemptAll_cons, attempt_of_error hs, taken_cons_of_error hs]
      exact ih h

/-- The refused calls can be left out, and none of the others is refused then. -/
theorem attemptAll_taken (t : Tally) (calls : List Access) :
    t.attemptAll (t.taken calls) = t.attemptAll calls ∧
      t.taken (t.taken calls) = t.taken calls := by
  induction calls generalizing t with
  | nil => exact ⟨rfl, rfl⟩
  | cons a rest ih =>
    cases hs : a.units t.units with
    | ok s =>
      obtain ⟨hall, htaken⟩ := ih (t.take s)
      rw [taken_cons_of_ok hs, attemptAll_cons, attemptAll_cons, attempt_of_ok hs,
        taken_cons_of_ok hs, htaken]
      exact ⟨hall, rfl⟩
    | error e =>
      rw [taken_cons_of_error hs, attemptAll_cons, attempt_of_error hs]
      exact ih t

/-- After any calls on a fresh tally, the set holds exactly the marks of the accesses taken,
and the counters are exact words. An access is taken exactly if its units can be addressed;
a refusal repeats its numbers and changes nothing, so the refused calls can be left out. -/
theorem attemptAll_exact (units : Grid) (blocks : Option Grid) (calls : List Access)
    (hwords : emitted units ((onGrids units blocks).taken calls) < UInt64.size) :
    let kept := (onGrids units blocks).taken calls
    let t := (onGrids units blocks).attemptAll calls
    (∀ u, t.seen.contains u = true ↔
        ∃ a ∈ kept, ∃ n, a.Touches n ∧ mark units blocks n = u.toNat) ∧
      t.seen.size = (marks units blocks kept).card ∧
      (t.seen.isEmpty = true ↔ marks units blocks kept = ∅) ∧
      t.totals.footprint.toNat = (marks units blocks kept).card ∧
      t.totals.accesses.toNat = kept.length ∧
      t.totals.touched.toNat = emitted units kept ∧
      (∀ a ∈ kept, (units.count? a.start a.length).isSome) ∧
      (∀ a, (t.attempt a).1 = .ok () ↔
        a.extent units < UInt64.size ∧
          units.below (a.start.toNat + a.length.toNat - 1) < UInt64.size) ∧
      (∀ a e, (t.attempt a).1 = .error e → e = ⟨a.start, a.length⟩ ∧ (t.attempt a).2 = t) ∧
      (onGrids units blocks).attemptAll kept = t ∧
      (onGrids units blocks).taken kept = kept := by
  intro kept t
  have h : t.AccountsFor kept := (accountsFor_onGrids units blocks).attemptAll calls
  have hunits : t.units = units := units_attemptAll _ calls
  have hblocks : t.blocks = blocks := blocks_attemptAll _ calls
  have hspread := h.spread
  have hseen := h.seen
  have himage := h.image_elements
  have hsize := h.size_eq
  have htouched := h.touched
  rw [hunits] at hspread htouched
  rw [hunits, hblocks] at himage hsize
  simp only [hunits, hblocks] at hseen
  have hcard := card_marks_le_emitted hspread blocks
  have hlength := length_le_emitted hspread
  obtain ⟨hall, htaken⟩ := attemptAll_taken (onGrids units blocks) calls
  refine ⟨hseen, hsize, ?_, ?_, ?_, ?_, ?_, ?_, ?_, hall, htaken⟩
  · rw [WorkingSet.isEmpty_iff, ← himage, Finset.image_eq_empty]
  · rw [totals, hsize, UInt64.toNat_ofNat_of_lt' (Nat.lt_of_le_of_lt hcard hwords)]
  · rw [totals, h.accesses, UInt64.toNat_ofNat_of_lt' (Nat.lt_of_le_of_lt hlength hwords)]
  · rw [totals, htouched, UInt64.toNat_ofNat_of_lt' hwords]
  · intro a ha
    obtain ⟨s, hs⟩ := hspread a ha
    rw [Access.count?_of_units hs]
    rfl
  · intro a
    rw [attempt_fst, hunits, ← Access.exists_units_iff]
    cases a.units units with
    | ok s => exact iff_of_true rfl ⟨s, rfl⟩
    | error e => simp only [Except.map, reduceCtorEq, exists_false]
  · intro a e he
    rw [attempt_fst] at he
    cases hs : a.units t.units with
    | ok s =>
      rw [hs] at he
      cases he
    | error e' =>
      rw [hs] at he
      cases he
      exact ⟨Access.eq_of_units_eq_error hs, by rw [attempt_of_error hs]⟩

/-- Four calls on pages of eight and blocks of twelve; the second is refused. -/
theorem attemptAll_exact_of_four_calls :
    let units : Grid := ⟨8, by decide⟩
    let blocks : Grid := ⟨12, by decide⟩
    let calls : List Access := [⟨0, 16, by decide⟩, ⟨18446744073709551612, 64, by decide⟩,
      ⟨7, 2, by decide⟩, ⟨20, 1, by decide⟩]
    emitted units ((onGrids units (some blocks)).taken calls) < UInt64.size ∧
      ((onGrids units (some blocks)).attemptAll calls).totals.accesses.toNat = 3 ∧
      ((onGrids units (some blocks)).attemptAll calls).totals.touched.toNat = 5 ∧
      ((onGrids units (some blocks)).attemptAll calls).totals.footprint.toNat = 2 := by
  intro units blocks calls
  have hwords : emitted units ((onGrids units (some blocks)).taken calls) < UInt64.size := by
    decide +kernel
  obtain ⟨_, _, _, hfootprint, haccesses, htouched, _⟩ :=
    attemptAll_exact units (some blocks) calls hwords
  refine ⟨hwords, haccesses.trans ?_, htouched.trans ?_, hfootprint.trans ?_⟩ <;>
    decide +kernel

end Footprint.Tally

import Footprint.Proofs.Access.Units
import Footprint.Proofs.WorkingSet.Elements
import Footprint.Tally
import Mathlib.Algebra.GroupWithZero.Nat
import Mathlib.Data.Finset.Union

/-!
# What a tally stands for

Every touched address is seen under one number, its mark: the unit below it, or
the block below that unit. A tally accounts for a list of accesses if it has seen
their marks, computed address by address in the naturals, and nothing else, and
if its counters are those of the list. Taking an access extends the list by it,
so whatever takes accesses one at a time keeps the account.
-/

namespace Footprint.Tally

/-- The unit below an address, or the block below that unit. -/
def mark (units : Grid) (blocks : Option Grid) (n : Nat) : Nat :=
  match blocks with
  | some g => g.below (units.below n)
  | none => units.below n

/-- The marks of all addresses that the accesses touch. -/
def marks (units : Grid) (blocks : Option Grid) (as : List Access) : Finset Nat :=
  as.toFinset.biUnion fun a =>
    (Finset.Ico a.start.toNat (a.start.toNat + a.length.toNat)).image (mark units blocks)

/-- The unit counts of the accesses, summed. -/
def emitted (units : Grid) (as : List Access) : Nat :=
  (as.map fun a => ((units.count? a.start a.length).getD 0).toNat).sum

/-- Accesses after others have the units they have alone. -/
theorem emitted_append (units : Grid) (as bs : List Access) :
    emitted units (as ++ bs) = emitted units as + emitted units bs := by
  simp only [emitted, List.map_append, List.sum_append]

/-- The tally holds the marks and the counters of the accesses, all of which it could take. -/
structure AccountsFor (t : Tally) (as : List Access) : Prop where
  /-- The units of every access can be addressed. -/
  spread : ∀ a ∈ as, ∃ s, a.units t.units = .ok s
  /-- Exactly the marks of touched addresses have been seen. -/
  seen : ∀ u, t.seen.contains u = true ↔
    ∃ a ∈ as, ∃ n, a.Touches n ∧ mark t.units t.blocks n = u.toNat
  /-- Every access is counted. -/
  accesses : t.accesses = as.length
  /-- Every unit is counted for every access that touches it. -/
  touched : t.touched = emitted t.units as

theorem mem_marks {units : Grid} {blocks : Option Grid} {as : List Access} {m : Nat} :
    m ∈ marks units blocks as ↔ ∃ a ∈ as, ∃ n, a.Touches n ∧ mark units blocks n = m := by
  simp only [marks, Finset.mem_biUnion, List.mem_toFinset, Finset.mem_image, Finset.mem_Ico,
    Access.Touches]

/-- Accesses add their own marks. -/
theorem marks_cons (units : Grid) (blocks : Option Grid) (a : Access) (as : List Access) :
    marks units blocks (a :: as) =
      (Finset.Ico a.start.toNat (a.start.toNat + a.length.toNat)).image (mark units blocks) ∪
        marks units blocks as := by
  rw [marks, List.toFinset_cons, Finset.biUnion_insert]
  rfl

/-- A mark is not above its address. -/
theorem mark_le_below (units : Grid) (blocks : Option Grid) (n : Nat) :
    mark units blocks n ≤ units.below n := by
  cases blocks with
  | none => exact Nat.le_refl _
  | some g => exact g.below_le _

/-- Coarsening the unit below an address gives the mark of the address. -/
theorem toNat_coarsen {units : Grid} {blocks : Option Grid} {n : Nat} {u : UInt64}
    (h : units.below n = u.toNat) : (coarsen blocks u).toNat = mark units blocks n := by
  cases blocks with
  | none => exact h.symm
  | some g =>
    rw [coarsen, g.toNat_floor_eq_below, ← h]
    rfl

/-- Seeing a stretch is seeing the list of its coarsened units. -/
theorem see_eq_insertAll (blocks : Option Grid) (seen : WorkingSet) (s : Stretch) :
    see blocks seen s = seen.insertAll (s.toList.map (coarsen blocks)) := by
  rw [see, Stretch.foldl_eq, WorkingSet.insertAll, List.foldl_map]

@[simp] theorem units_take (t : Tally) (s : Stretch) : (t.take s).units = t.units := rfl

@[simp] theorem blocks_take (t : Tally) (s : Stretch) : (t.take s).blocks = t.blocks := rfl

/-- Taking an access makes the marks of its addresses seen and no other. -/
theorem contains_take_iff {t : Tally} {a : Access} {s : Stretch}
    (h : a.units t.units = .ok s) {u : UInt64} :
    (t.take s).seen.contains u = true ↔
      t.seen.contains u = true ∨ ∃ n, a.Touches n ∧ mark t.units t.blocks n = u.toNat := by
  simp only [take, see_eq_insertAll, WorkingSet.contains_insertAll, Bool.or_eq_true,
    List.contains_iff_mem, List.mem_map]
  rw [or_comm]
  apply or_congr_right
  constructor
  · rintro ⟨v, hv, rfl⟩
    obtain ⟨n, hn, he⟩ := (Access.mem_units_iff h).mp hv
    exact ⟨n, hn, (toNat_coarsen he).symm⟩
  · rintro ⟨n, hn, he⟩
    have hv : t.units.below n = (UInt64.ofNat (t.units.below n)).toNat :=
      (UInt64.toNat_ofNat_of_lt' (Access.below_lt_size_of_units h hn)).symm
    refine ⟨_, (Access.mem_units_iff h).mpr ⟨n, hn, hv⟩, ?_⟩
    rw [← UInt64.toNat_inj, toNat_coarsen hv, he]

/-- A fresh tally accounts for no access. -/
theorem accountsFor_onGrids (units : Grid) (blocks : Option Grid) :
    (onGrids units blocks).AccountsFor [] where
  spread := fun _ h => absurd h List.not_mem_nil
  seen := by
    intro u
    simp only [onGrids, WorkingSet.contains_empty, Bool.false_eq_true, List.not_mem_nil,
      false_and, exists_false]
  accesses := rfl
  touched := rfl

namespace AccountsFor

variable {t : Tally} {as : List Access}

/-- Taking an access adds it to the account. -/
theorem take (h : t.AccountsFor as) {a : Access} {s : Stretch}
    (hs : a.units t.units = .ok s) : (t.take s).AccountsFor (as ++ [a]) where
  spread := by
    intro b hb
    rcases List.mem_append.mp hb with hb | hb
    · exact h.spread b hb
    · rw [List.mem_singleton.mp hb]
      exact ⟨s, hs⟩
  seen := by
    intro u
    rw [contains_take_iff hs, h.seen u]
    simp only [units_take, blocks_take, List.mem_append, List.mem_singleton, or_and_right,
      exists_or, exists_eq_left]
  accesses := by
    rw [List.length_append, ← h.accesses]
    rfl
  touched := by
    have hs' := Access.count?_of_units hs
    simp only [Tally.take, emitted, List.map_append, List.sum_append, List.map_cons, List.map_nil,
      List.sum_cons, List.sum_nil, Nat.add_zero, hs', Option.getD_some, h.touched]

/-- The elements seen are the marks. -/
theorem image_elements (h : t.AccountsFor as) :
    t.seen.elements.image UInt64.toNat = marks t.units t.blocks as := by
  ext m
  simp only [Finset.mem_image, WorkingSet.mem_elements, mem_marks, h.seen]
  constructor
  · rintro ⟨u, ⟨a, ha, n, hn, he⟩, rfl⟩
    exact ⟨a, ha, n, hn, he⟩
  · rintro ⟨a, ha, n, hn, rfl⟩
    obtain ⟨s, hs⟩ := h.spread a ha
    have hlt : mark t.units t.blocks n < UInt64.size :=
      Nat.lt_of_le_of_lt (mark_le_below _ _ n) (Access.below_lt_size_of_units hs hn)
    have hu := UInt64.toNat_ofNat_of_lt' hlt
    exact ⟨.ofNat _, ⟨a, ha, n, hn, hu.symm⟩, hu⟩

/-- The size of the set is the number of marks. -/
theorem size_eq (h : t.AccountsFor as) : t.seen.size = (marks t.units t.blocks as).card := by
  rw [← h.image_elements, Finset.card_image_of_injective _ fun _ _ => UInt64.toNat_inj.mp,
    WorkingSet.card_elements]

/-- Tallies on the same grids that account for the same accesses have the same counters and have
seen the same elements. -/
theorem totals_and_elements_eq {t' : Tally} (h : t.AccountsFor as) (h' : t'.AccountsFor as)
    (hunits : t'.units = t.units) (hblocks : t'.blocks = t.blocks) :
    t'.totals = t.totals ∧ t'.seen.elements = t.seen.elements := by
  constructor
  · rw [totals, totals, h'.accesses, h'.touched, h'.size_eq, hunits, hblocks, ← h.accesses,
      ← h.touched, ← h.size_eq]
  · ext u
    simp only [WorkingSet.mem_elements, h.seen, h'.seen, hunits, hblocks]

/-- The tally of two lists counts what the tallies of the lists count, and has seen the union of
what they have seen. -/
theorem append {first second : Tally} {bs : List Access} (h : t.AccountsFor (as ++ bs))
    (hfirst : first.AccountsFor as) (hsecond : second.AccountsFor bs)
    (hunits : first.units = t.units ∧ second.units = t.units)
    (hblocks : first.blocks = t.blocks ∧ second.blocks = t.blocks) :
    t.accesses = first.accesses + second.accesses ∧
      t.touched = first.touched + second.touched ∧
      t.seen.elements = first.seen.elements ∪ second.seen.elements := by
  refine ⟨?_, ?_, ?_⟩
  · rw [h.accesses, hfirst.accesses, hsecond.accesses, List.length_append]
  · rw [h.touched, hfirst.touched, hsecond.touched, hunits.1, hunits.2, emitted_append]
  · ext u
    simp only [Finset.mem_union, WorkingSet.mem_elements, h.seen, hfirst.seen, hsecond.seen,
      hunits, hblocks, List.mem_append, or_and_right, exists_or]

end AccountsFor

/-- Accesses that can be taken have no more marks than units. -/
theorem card_marks_le_emitted {units : Grid} {as : List Access}
    (h : ∀ a ∈ as, ∃ s, a.units units = .ok s) (blocks : Option Grid) :
    (marks units blocks as).card ≤ emitted units as := by
  induction as with
  | nil => exact Nat.le_refl 0
  | cons a as ih =>
    obtain ⟨s, hs⟩ := h a List.mem_cons_self
    have hcount := Access.count?_of_units hs
    have hown : ((Finset.Ico a.start.toNat (a.start.toNat + a.length.toNat)).image
        (mark units blocks)).card ≤ s.remaining.toNat := by
      rw [(Grid.count?_eq_some_iff.mp hcount).2]
      refine Nat.le_trans ?_ (Nat.le_of_eq (a.card_image_below units))
      cases blocks with
      | none => exact Nat.le_refl _
      | some g =>
        -- several units may have one block, so the second rounding can only merge marks
        have hcomp : mark units (some g) = g.below ∘ units.below := rfl
        rw [hcomp, ← Finset.image_image]
        exact Finset.card_image_le
    have hrest := ih fun b hb => h b (List.mem_cons_of_mem _ hb)
    rw [marks_cons]
    refine Nat.le_trans (Finset.card_union_le _ _) ?_
    simp only [emitted, List.map_cons, List.sum_cons, hcount, Option.getD_some]
    exact Nat.add_le_add hown hrest

/-- Every access that can be taken has a unit. -/
theorem length_le_emitted {units : Grid} {as : List Access}
    (h : ∀ a ∈ as, ∃ s, a.units units = .ok s) : as.length ≤ emitted units as := by
  induction as with
  | nil => exact Nat.le_refl 0
  | cons a as ih =>
    obtain ⟨s, hs⟩ := h a List.mem_cons_self
    have hcount := Access.count?_of_units hs
    have hpos : 0 < s.remaining.toNat := by
      rw [(Grid.count?_eq_some_iff.mp hcount).2]
      exact a.pitchesIn_extent_pos units
    have hrest := ih fun b hb => h b (List.mem_cons_of_mem _ hb)
    simp only [emitted, List.map_cons, List.sum_cons, List.length_cons, hcount,
      Option.getD_some] at hrest ⊢
    omega

/-- The counters of fewer units than there are words are exact. -/
theorem AccountsFor.toNat_totals {t : Tally} {as : List Access} (h : t.AccountsFor as)
    (hwords : t.touched < UInt64.size) :
    t.totals.accesses.toNat = t.accesses ∧ t.totals.touched.toNat = t.touched := by
  have haccesses : t.accesses ≤ t.touched := by
    rw [h.accesses, h.touched]
    exact length_le_emitted h.spread
  constructor
  · exact UInt64.toNat_ofNat_of_lt' (Nat.lt_of_le_of_lt haccesses hwords)
  · exact UInt64.toNat_ofNat_of_lt' hwords

end Footprint.Tally

import Footprint.Proofs.Measurement.Faults

/-!
# The counters of a measurement balance

Every line that was read is an access that was tallied, an empty request, the line that
left the window, or the line on which something went wrong. A line that could not be read
is not among them, and the last two exclude each other. An access touches at least one
unit, and no unit is seen that was not touched.
-/

namespace Footprint

/-- The line on which something went wrong has been counted: only a line that could not be read
has not. -/
def MeasurementFault.isCounted : MeasurementFault → Bool
  | .reading (.content _) => false
  | .reading (.entry _) => true
  | .overflow _ => true

namespace Line

variable {units : Grid} {last : Option Nat} {v : Except ReadingFault Entry}
  {vs : List (Except ReadingFault Entry)}

/-- Lines that do not end a reading are empty requests and accesses. -/
theorem length_eq_of_not_ends (h : ∀ v ∈ vs, ends last v = false) :
    vs.length = (vs.filterMap access?).length + vs.countP isEmpty := by
  induction vs with
  | nil => rfl
  | cons v vs ih =>
    rw [List.forall_mem_cons] at h
    rw [List.length_cons, ih h.2, filterMap_access?_cons, List.length_append, List.countP_cons]
    obtain ⟨hempty, _, hnone⟩ | hends | ⟨a, ha, _, _, hempty⟩ := kinds last v
    · rw [hempty, hnone, if_pos rfl, Option.toList_none, List.length_nil]
      omega
    · cases h.1.symm.trans hends
    · rw [hempty, ha, if_neg Bool.false_ne_true, Option.toList_some, List.length_singleton]
      omega

/-- The end of a measurement is counted if it left the window or a fault was found on it. -/
theorem counts_of_stops (h : stops units last v = true) :
    (if counts v then 1 else 0) =
      (if isLate last v then 1 else 0) +
        if (failure? units last v).any (·.isCounted) then 1 else 0 := by
  rw [failure?_eq]
  cases hlate : isLate last v with
  | true =>
    obtain e | entry := v
    · rw [isLate_of_stamp?_eq_none rfl] at hlate
      cases hlate
    · rfl
  | false =>
    rw [stops_eq, hlate, Bool.false_or] at h
    obtain (e | e) | ⟨_ | a, stamp⟩ := v
    · rfl
    · rfl
    · cases h
    · rw [defect?, Option.bind_some] at h ⊢
      cases hs : a.units units with
      | ok s =>
        rw [hs] at h
        cases h
      | error o => rfl

end Line

/-- Only no accesses have no marks. -/
theorem Tally.marks_eq_empty_iff {units : Grid} {blocks : Option Grid} {as : List Access} :
    marks units blocks as = ∅ ↔ as = [] := by
  constructor
  · intro h
    cases as with
    | nil => rfl
    | cons a as =>
      have hmem : mark units blocks a.start.toNat ∈ marks units blocks (a :: as) :=
        mem_marks.mpr ⟨a, List.mem_cons_self, a.start.toNat, ⟨Nat.le_refl _, by
          have hpos := UInt64.lt_iff_toNat_lt.mp a.length_pos
          rw [UInt64.toNat_zero] at hpos
          omega⟩, rfl⟩
      rw [h] at hmem
      exact absurd hmem (Finset.notMem_empty _)
  · rintro rfl
    rfl

namespace Measurement

/-- The lines counted are the accesses, the empty requests and the end, if it is counted. -/
theorem lines_eq (format : Format) (mode : CacheMode) (hours : Option UInt64) (content : Content) :
    let m := run format mode hours content
    m.stats.lines =
      m.tally.accesses + m.stats.empty + (if m.stats.closed then 1 else 0) +
        (if m.fault.any (·.isCounted) then 1 else 0) := by
  intro m
  obtain ⟨hfault, hstats, _, _, haccount⟩ := run_eq format mode hours content
  generalize Line.verdicts format hours.isSome content.lines = vs at hfault hstats haccount
  generalize Line.deadline format hours vs = last at hfault hstats haccount
  have hpassed : ∀ v ∈ vs.takeWhile (fun v => !Line.stops format.unitGrid last v),
      Line.ends last v = false := by
    intro v hv
    have hgo := List.mem_takeWhile_imp hv
    rw [Bool.not_eq_true'] at hgo
    exact (Bool.or_eq_false_iff.mp hgo).1
  have hlength := Line.length_eq_of_not_ends hpassed
  have haccesses : m.tally.accesses = _ := haccount.accesses
  rw [hstats, hfault, haccesses, Progress.finalStats]
  cases hstop : vs.find? (Line.stops format.unitGrid last) with
  | none =>
    simp only [Option.any_none, Option.bind_none, Bool.false_eq_true, if_false]
    omega
  | some v =>
    have hcounts := Line.counts_of_stops (List.find?_some hstop)
    simp only [Option.any_some, Option.bind_some, hcounts]
    omega

/-- A measurement that left the window did not fail. -/
theorem fault_eq_none_of_closed {format : Format} {mode : CacheMode} {hours : Option UInt64}
    {content : Content} (h : (run format mode hours content).stats.closed = true) :
    (run format mode hours content).fault = none := by
  obtain ⟨hfault, hstats, _⟩ := run_eq format mode hours content
  rw [hstats, Progress.finalStats, Option.any_eq_true] at h
  obtain ⟨v, hv, hlate⟩ := h
  rw [hfault, hv, Option.bind_some, Line.failure?_eq, if_pos hlate]

/-- However a source delivers and whether or not it fails, at the end of its measurement the lines
counted are the accesses, the empty requests, the line that left the window if one did, and the line
with the fault if that was counted. A measurement does not both leave the window and fail. There are
at least as many units touched as accesses and as distinct marks, and no marks only if there are no
accesses. -/
theorem counters_balance (format : Format) (mode : CacheMode) (hours : Option UInt64)
    (deliveries : List Delivery)
    (hwords : (run format mode hours (.ofDeliveries deliveries)).tally.touched < UInt64.size) :
    let m := run format mode hours (.ofDeliveries deliveries)
    m.stats.lines =
        m.totals.accesses.toNat + m.stats.empty + (if m.stats.closed then 1 else 0) +
          (if m.fault.any (·.isCounted) then 1 else 0) ∧
      ¬ (m.stats.closed = true ∧ m.fault.isSome = true) ∧
      m.totals.accesses.toNat ≤ m.totals.touched.toNat ∧
      m.totals.footprint.toNat ≤ m.totals.touched.toNat ∧
      (m.totals.footprint = 0 ↔ m.totals.accesses = 0) := by
  intro m
  obtain ⟨_, _, hunits, _, haccount⟩ := run_eq format mode hours (.ofDeliveries deliveries)
  have hpitch : 2 ≤ m.tally.units.pitch.toNat := by
    rw [hunits]
    cases format <;> decide
  obtain ⟨haccesses, htouched⟩ := haccount.toNat_totals hwords
  have hfootprint := haccount.toNat_footprint hpitch
  generalize List.filterMap Line.access? _ = as at haccount hfootprint
  have hlines : m.stats.lines = _ := lines_eq format mode hours (.ofDeliveries deliveries)
  refine ⟨?_, ?_, ?_, ?_, ?_⟩
  · rw [hlines, ← haccesses]
    rfl
  · rintro ⟨hclosed, hfault⟩
    rw [fault_eq_none_of_closed hclosed] at hfault
    cases hfault
  · rw [totals, haccesses, htouched, haccount.accesses, haccount.touched]
    exact Tally.length_le_emitted haccount.spread
  · rw [totals, hfootprint, htouched, haccount.touched]
    exact Tally.card_marks_le_emitted haccount.spread _
  · rw [← UInt64.toNat_inj, ← UInt64.toNat_inj, totals, hfootprint, haccesses,
      haccount.accesses, UInt64.toNat_zero, Finset.card_eq_zero, Tally.marks_eq_empty_iff,
      List.length_eq_zero_iff]

/-- An access and an empty request come through before the source fails inside the third line. -/
theorem counters_balance_of_torn_line :
    let deliveries := [.data "5 1 p 120 16 R\n6 1 p 3".toUTF8.toList, .interrupted,
      .data " 0 W\r\n7 1 p 8 8".toUTF8.toList, .failed "disk on fire"]
    let m := run .fiu .dmCache (some 1) (.ofDeliveries deliveries)
    m.tally.touched < UInt64.size ∧
      m.fault = some (.reading (.content (.failed "disk on fire"))) ∧
      m.stats = { lines := 2, empty := 1, closed := false } ∧ m.totals.accesses.toNat = 1 ∧
      m.totals.footprint.toNat ≤ 2 ∧ m.totals.footprint ≠ 0 := by
  intro deliveries m
  have hwords : m.tally.touched < UInt64.size := by decide +kernel
  obtain ⟨hlines, _, _, hfootprint, hzero⟩ :=
    counters_balance .fiu .dmCache (some 1) deliveries hwords
  have hfault : m.fault = some (.reading (.content (.failed "disk on fire"))) := by decide +kernel
  have hstats : m.stats = { lines := 2, empty := 1, closed := false } := by decide +kernel
  have htouched : m.totals.touched.toNat = 2 := by decide +kernel
  have haccesses : m.totals.accesses.toNat = 1 := by
    rw [hstats, hfault] at hlines
    have hsum : 2 = m.totals.accesses.toNat + 1 + 0 + 0 := hlines
    omega
  refine ⟨hwords, hfault, hstats, haccesses, htouched ▸ hfootprint, fun h => ?_⟩
  rw [hzero.mp h] at haccesses
  cases haccesses

end Measurement

end Footprint

import Footprint.Proofs.Measurement.Numbers
import Footprint.Proofs.Trace.Contents

/-!
# Measuring a text in two parts

Without a limit nothing that was read decides how later lines are read, so the verdicts
on a text that is cut after a line feed are those on its parts, up to the line numbers in
faults. If the first part fails, the second one is never looked at. Otherwise the counters
of the parts add up, and the working set is the union of theirs.
-/

namespace Footprint

namespace Line

/-- Nothing is wrong with a line by itself. -/
def isSound (units : Grid) (v : Except ReadingFault Entry) : Bool :=
  (defect? units v).isNone

/-- A line is as sound as it is later in the trace. -/
@[simp] theorem isSound_later (units : Grid) (k : Nat) (v : Except ReadingFault Entry) :
    isSound units (later k v) = isSound units v := by
  rw [isSound, defect?_later, isSound, Option.isNone_map]

/-- Without a limit a measurement ends at a line that is not sound. -/
theorem stops_none (units : Grid) : stops units none = fun v => !isSound units v := by
  funext v
  rw [stops_eq, isSound]
  cases defect? units v <;> rfl

variable {units : Grid} {vs : List (Except ReadingFault Entry)}

/-- No line has a defect exactly if all are sound. -/
theorem findSome?_defect?_eq_none_iff :
    vs.findSome? (defect? units) = none ↔ ∀ v ∈ vs, isSound units v = true := by
  simp only [List.findSome?_eq_none_iff, isSound, Option.isNone_iff_eq_none]

/-- Some line has a defect exactly if one is not sound. -/
theorem isSome_findSome?_defect?_iff :
    (vs.findSome? (defect? units)).isSome = true ↔ ∃ v ∈ vs, isSound units v = false := by
  rw [← Bool.not_eq_false, Option.isSome_eq_false_iff, Option.isNone_iff_eq_none,
    findSome?_defect?_eq_none_iff]
  simp only [not_forall, Bool.not_eq_true, exists_prop]

/-- Among sound lines none is unsound. -/
theorem find?_eq_none_of_isSound (h : ∀ v ∈ vs, isSound units v = true) :
    vs.find? (fun v => !isSound units v) = none := by
  simpa only [List.find?_eq_none, Bool.not_eq_true', Bool.not_eq_false] using h

/-- After sound lines the further lines are sound for as long as they are alone. -/
theorem takeWhile_isSound_append_later (h : ∀ v ∈ vs, isSound units v = true)
    (more : List (Except ReadingFault Entry)) (k : Nat) :
    (vs ++ more.map (later k)).takeWhile (isSound units) =
      vs ++ (more.takeWhile (isSound units)).map (later k) := by
  have hsame : isSound units ∘ later k = isSound units := funext (isSound_later units k)
  rw [List.takeWhile_append_of_pos h, List.takeWhile_map, hsame]

/-- After sound lines the first unsound line is that of the further lines. -/
theorem find?_append_later (h : ∀ v ∈ vs, isSound units v = true)
    (more : List (Except ReadingFault Entry)) (k : Nat) :
    (vs ++ more.map (later k)).find? (fun v => !isSound units v) =
      (more.find? fun v => !isSound units v).map (later k) := by
  rw [List.find?_append, find?_eq_none_of_isSound h, Option.none_or, List.find?_map]
  simp only [Function.comp_def, isSound_later]

end Line

/-- Without a limit lines that come later add what they count alone. -/
theorem Progress.finalStats_append_later (before more : List (Except ReadingFault Entry))
    (stop : Option (Except ReadingFault Entry)) (k : Nat) :
    finalStats none (before ++ more.map (Line.later k)) (stop.map (Line.later k)) =
      { lines := before.length + (finalStats none more stop).lines
        empty := before.countP Line.isEmpty + (finalStats none more stop).empty
        closed := false } := by
  have hlate : (stop.map (Line.later k)).any (Line.isLate none) = false := by
    cases stop <;> rfl
  have hempty : Line.isEmpty ∘ Line.later k = Line.isEmpty := funext (Line.isEmpty_later k)
  have hcounts : (stop.map (Line.later k)).any Line.counts = stop.any Line.counts := by
    cases stop with
    | none => rfl
    | some v => exact Line.counts_later k v
  simp only [finalStats, hlate, List.length_append, List.length_map, List.countP_append,
    List.countP_map, hempty, hcounts, Nat.add_assoc]

namespace Measurement

variable {format : Format} {mode : CacheMode} {vs more : List (Except ReadingFault Entry)}

/-- A measurement without a limit that has followed the verdicts up to the first defect. -/
structure Follows (format : Format) (mode : CacheMode) (vs : List (Except ReadingFault Entry))
    (m : Measurement) : Prop where
  /-- The first defect is reported. -/
  fault : m.fault = vs.findSome? (Line.defect? format.unitGrid)
  /-- The line with the first defect is the last one counted. -/
  stats : m.stats = Progress.finalStats none (vs.takeWhile (Line.isSound format.unitGrid))
    (vs.find? fun v => !Line.isSound format.unitGrid v)
  /-- Accesses are spread over the units of the format. -/
  units : m.tally.units = format.unitGrid
  /-- Units are seen as the mode says. -/
  blocks : m.tally.blocks = mode.blocks format
  /-- The accesses before the first defect are tallied. -/
  account : m.tally.AccountsFor
    ((vs.takeWhile (Line.isSound format.unitGrid)).filterMap Line.access?)

/-- A run without a limit follows the verdicts on its lines. -/
theorem follows_run (format : Format) (mode : CacheMode) (content : Content) :
    Follows format mode (Line.verdicts format false content.lines)
      (run format mode none content) := by
  obtain ⟨hfault, hstats, hunits, hblocks, haccount⟩ := run_eq format mode none content
  have hlast : Line.deadline format none (Line.verdicts format false content.lines) = none := rfl
  have hfirst := Line.find?_stops_bind_failure? format.unitGrid none
    (Line.verdicts format false content.lines)
  have hadmitted : (Line.verdicts format false content.lines).takeWhile
      (fun v => !Line.isLate none v) = Line.verdicts format false content.lines :=
    List.takeWhile_eq_self_iff.mpr fun _ _ => rfl
  rw [hadmitted] at hfirst
  simp only [Option.isSome_none, hlast, Line.stops_none, Bool.not_not]
    at hfault hfirst hstats haccount
  exact ⟨hfault.trans hfirst, hstats, hunits, hblocks, haccount⟩

namespace Follows

variable {m first second : Measurement}

/-- After a fault the further lines do not matter. -/
theorem eq_of_isSome_fault (h : Follows format mode (vs ++ more) m)
    (hfirst : Follows format mode vs first) (hfault : first.fault.isSome = true) :
    m.fault = first.fault ∧ m.stats = first.stats ∧ m.totals = first.totals ∧
      m.tally.seen.elements = first.tally.seen.elements := by
  rw [hfirst.fault] at hfault
  obtain ⟨v, hv, hunsound⟩ := Line.isSome_findSome?_defect?_iff.mp hfault
  have hstop : (vs.find? fun v => !Line.isSound format.unitGrid v).isSome = true :=
    List.find?_isSome.mpr ⟨v, hv, by rw [hunsound]; rfl⟩
  have hpassed : (vs ++ more).takeWhile (Line.isSound format.unitGrid) =
      vs.takeWhile (Line.isSound format.unitGrid) := by
    rw [List.takeWhile_append, if_neg]
    intro hlength
    have hself := (List.takeWhile_prefix (Line.isSound format.unitGrid)).eq_of_length hlength
    have hsound := List.takeWhile_eq_self_iff.mp hself v hv
    exact Bool.false_ne_true (hunsound.symm.trans hsound)
  have haccount := h.account
  rw [hpassed] at haccount
  obtain ⟨htotals, helements⟩ := hfirst.account.totals_and_elements_eq haccount
    (h.units.trans hfirst.units.symm) (h.blocks.trans hfirst.blocks.symm)
  refine ⟨?_, ?_, htotals, helements⟩
  · rw [h.fault, hfirst.fault, List.findSome?_append, Option.or_of_isSome hfault]
  · rw [h.stats, hfirst.stats, hpassed, List.find?_append, Option.or_of_isSome hstop]

/-- After lines without a fault the further lines are measured as they are alone, with later
numbers: the counters add up, and the working set is the union. -/
theorem append_of_fault_eq_none
    (h : Follows format mode (vs ++ more.map (Line.later vs.length)) m)
    (hfirst : Follows format mode vs first) (hsecond : Follows format mode more second)
    (hfault : first.fault = none) :
    m.fault = second.fault.map (.later first.stats.lines) ∧
      m.stats = { lines := first.stats.lines + second.stats.lines
                  empty := first.stats.empty + second.stats.empty
                  closed := false } ∧
      m.tally.accesses = first.tally.accesses + second.tally.accesses ∧
      m.tally.touched = first.tally.touched + second.tally.touched ∧
      m.tally.seen.elements = first.tally.seen.elements ∪ second.tally.seen.elements := by
  rw [hfirst.fault] at hfault
  have hsound := Line.findSome?_defect?_eq_none_iff.mp hfault
  have hall : vs.takeWhile (Line.isSound format.unitGrid) = vs :=
    List.takeWhile_eq_self_iff.mpr hsound
  have hnone := Line.find?_eq_none_of_isSound hsound
  have hstats := hfirst.stats
  rw [hall, hnone] at hstats
  have hlines : first.stats.lines = vs.length := by
    rw [hstats]
    rfl
  have hpassed := Line.takeWhile_isSound_append_later hsound more vs.length
  have hstop := Line.find?_append_later hsound more vs.length
  refine ⟨?_, ?_, ?_⟩
  · rw [h.fault, List.findSome?_append, hfault, Option.none_or, List.findSome?_map, hsecond.fault,
      List.map_findSome?, hlines]
    congr 1
    funext v
    exact Line.defect?_later format.unitGrid vs.length v
  · rw [h.stats, hpassed, hstop, Progress.finalStats_append_later, hstats, hsecond.stats]
    rfl
  · have haccount := h.account
    have hfirst' := hfirst.account
    rw [hpassed, List.filterMap_append, List.filterMap_map] at haccount
    rw [hall] at hfirst'
    have haccess : Line.access? ∘ Line.later vs.length = Line.access? :=
      funext (Line.access?_later _)
    rw [haccess] at haccount
    exact haccount.append hfirst' hsecond.account
      ⟨hfirst.units.trans h.units.symm, hsecond.units.trans h.units.symm⟩
      ⟨hfirst.blocks.trans h.blocks.symm, hsecond.blocks.trans h.blocks.symm⟩

/-- The footprint of a measurement is the size of its working set. -/
theorem toNat_footprint (h : Follows format mode vs m) :
    m.totals.footprint.toNat = m.tally.seen.elements.card := by
  have hpitch : 2 ≤ format.unitGrid.pitch.toNat := by cases format <;> decide
  rw [totals, h.account.toNat_footprint (by rwa [h.units]), ← h.account.size_eq,
    WorkingSet.card_elements]

/-- The counters of fewer units than there are words are exact. -/
theorem toNat_totals (h : Follows format mode vs m) (hwords : m.tally.touched < UInt64.size) :
    m.totals.accesses.toNat = m.tally.accesses ∧ m.totals.touched.toNat = m.tally.touched :=
  h.account.toNat_totals hwords

end Follows

/-- A text that is measured without a limit can be cut after any line feed. If the first part fails,
the whole fails in the same way, with the same counters. Otherwise the whole fails as the second
part does, with line numbers that are greater by the lines of the first part, and succeeds if the
second part does. The counters of the parts add up, and the working set is the union of theirs. -/
theorem run_append (format : Format) (mode : CacheMode) {first : String}
    (h : first = "" ∨ first.toList.getLast? = some '\n') (second : String) :
    let m₁ := run format mode none (.ofText first)
    let m₂ := run format mode none (.ofText second)
    let m := run format mode none (.ofText (first ++ second))
    (m₁.fault.isSome = true →
        m.fault = m₁.fault ∧ m.stats = m₁.stats ∧ m.totals = m₁.totals ∧
          m.tally.seen.elements = m₁.tally.seen.elements) ∧
      (m₁.fault = none →
        (m.fault = none ↔ m₂.fault = none) ∧
          m.fault = m₂.fault.map (.later m₁.stats.lines) ∧
          m.stats = { lines := m₁.stats.lines + m₂.stats.lines
                      empty := m₁.stats.empty + m₂.stats.empty
                      closed := false } ∧
          m.tally.accesses = m₁.tally.accesses + m₂.tally.accesses ∧
          m.tally.touched = m₁.tally.touched + m₂.tally.touched ∧
          m.tally.seen.elements = m₁.tally.seen.elements ∪ m₂.tally.seen.elements ∧
          max m₁.totals.footprint.toNat m₂.totals.footprint.toNat ≤ m.totals.footprint.toNat ∧
          m.totals.footprint.toNat ≤
            m₁.totals.footprint.toNat + m₂.totals.footprint.toNat ∧
          (m₁.tally.touched + m₂.tally.touched < UInt64.size →
            m.totals.accesses.toNat =
                m₁.totals.accesses.toNat + m₂.totals.accesses.toNat ∧
              m.totals.touched.toNat =
                m₁.totals.touched.toNat + m₂.totals.touched.toNat)) := by
  intro m₁ m₂ m
  have hfirst : Follows format mode _ m₁ := follows_run format mode (.ofText first)
  have hsecond : Follows format mode _ m₂ := follows_run format mode (.ofText second)
  have hwhole : Follows format mode _ m := follows_run format mode (.ofText (first ++ second))
  rw [Content.lines_ofText_append h, Line.verdicts_append,
    ← Line.length_verdictsFrom format false 1, ← Line.verdicts] at hwhole
  refine ⟨hwhole.eq_of_isSome_fault hfirst, fun hfault => ?_⟩
  obtain ⟨hsame, hstats, haccesses, htouched, helements⟩ :=
    hwhole.append_of_fault_eq_none hfirst hsecond hfault
  refine ⟨?_, hsame, hstats, haccesses, htouched, helements, ?_, ?_, ?_⟩
  · rw [hsame, Option.map_eq_none_iff]
  · rw [hwhole.toNat_footprint, hfirst.toNat_footprint, hsecond.toNat_footprint, helements]
    exact Nat.max_le.mpr ⟨Finset.card_le_card Finset.subset_union_left,
      Finset.card_le_card Finset.subset_union_right⟩
  · rw [hwhole.toNat_footprint, hfirst.toNat_footprint, hsecond.toNat_footprint, helements]
    exact Finset.card_union_le _ _
  · intro hwords
    obtain ⟨ha, ht⟩ := hwhole.toNat_totals (htouched ▸ hwords)
    obtain ⟨ha₁, ht₁⟩ := hfirst.toNat_totals
      (Nat.lt_of_le_of_lt (Nat.le_add_right _ _) hwords)
    obtain ⟨ha₂, ht₂⟩ := hsecond.toNat_totals
      (Nat.lt_of_le_of_lt (Nat.le_add_left _ _) hwords)
    exact ⟨by rw [ha, ha₁, ha₂, haccesses], by rw [ht, ht₁, ht₂, htouched]⟩

/-- The two parts overlap in a page; the second one fails on its second line, and before the
first one it would have failed there too. -/
theorem run_append_of_overlapping_pages :
    let first := "5 1 p 0 8 R\n6 1 p 8 0 W\n"
    let second := "7 1 p 4 8 R\n8 1 p\n"
    (first = "" ∨ first.toList.getLast? = some '\n') ∧
      (second = "" ∨ second.toList.getLast? = some '\n') ∧
      (run .fiu .exact none (.ofText (first ++ second))).fault =
        some (.reading (.entry (.tooFewFields 4 5 3 ' '))) ∧
      (run .fiu .exact none (.ofText (first ++ second))).tally.touched = 3 ∧
      (run .fiu .exact none (.ofText (second ++ first))).fault =
        some (.reading (.entry (.tooFewFields 2 5 3 ' '))) ∧
      (run .fiu .exact none (.ofText (second ++ first))).stats =
        { lines := 2, empty := 0, closed := false } := by
  intro first second
  have hfirst : first = "" ∨ first.toList.getLast? = some '\n' := Or.inr (by decide)
  have hsecond : second = "" ∨ second.toList.getLast? = some '\n' := Or.inr (by decide)
  have hgood : (run .fiu .exact none (.ofText first)).fault = none := by decide +kernel
  have hbad : (run .fiu .exact none (.ofText second)).fault =
      some (.reading (.entry (.tooFewFields 2 5 3 ' '))) := by decide +kernel
  obtain ⟨_, hfault, _, _, htouched, _⟩ := (run_append .fiu .exact hfirst second).2 hgood
  obtain ⟨hfault', hstats', _⟩ := (run_append .fiu .exact hsecond first).1 (by rw [hbad]; rfl)
  refine ⟨hfirst, hsecond, hfault.trans ?_, htouched.trans ?_, hfault'.trans hbad,
    hstats'.trans ?_⟩
  · decide +kernel
  · decide +kernel
  · decide +kernel

end Measurement

end Footprint

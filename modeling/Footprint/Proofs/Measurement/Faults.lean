import Footprint.Proofs.Measurement.Lines

/-!
# The first defect ends a measurement

Two parts of a measurement can object to a line: the reading, which cannot understand it,
and the tally, which cannot spread its access. Both objections depend on the line alone.
The first line stamped after the deadline puts all later ones out of reach, and of the
lines before it the first with a defect is reported, whichever of the two parts objects.
Every line before that one has been counted, and none after it.
-/

namespace Footprint

namespace Line

/-- What is wrong with a line by itself: it is refused, or its access cannot be spread. -/
def defect? (units : Grid) : Except ReadingFault Entry → Option MeasurementFault
  | .error e => some (.reading e)
  | .ok entry => entry.access.bind fun a =>
    match a.units units with
    | .ok _ => none
    | .error o => some (.overflow o)

variable {units : Grid} {last : Option Nat} {v : Except ReadingFault Entry}

/-- A line has a defect exactly if it is faulty or its access is refused. -/
theorem isSome_defect?_iff :
    (defect? units v).isSome = true ↔
      (fault? v).isSome = true ∨ ∃ a o, access? v = some a ∧ a.units units = .error o := by
  obtain e | ⟨_ | a, stamp⟩ := v
  · exact iff_of_true rfl (Or.inl rfl)
  · refine iff_of_false Bool.false_ne_true ?_
    rintro (h | ⟨a, o, h, _⟩)
    · exact nomatch h
    · exact nomatch h
  · have hdefect : defect? units (.ok ⟨some a, stamp⟩) =
        match a.units units with
        | .ok _ => none
        | .error o => some (.overflow o) := rfl
    rw [hdefect]
    cases hs : a.units units with
    | error o => exact iff_of_true rfl (Or.inr ⟨a, o, rfl, hs⟩)
    | ok s =>
      refine iff_of_false Bool.false_ne_true ?_
      rintro (h | ⟨b, o, hb, ho⟩)
      · exact nomatch h
      · cases hb
        exact nomatch hs.symm.trans ho

/-- A measurement ends at a line that is late or has a defect. -/
theorem stops_eq (units : Grid) (last : Option Nat) (v : Except ReadingFault Entry) :
    stops units last v = (isLate last v || (defect? units v).isSome) := by
  obtain e | ⟨_ | a, stamp⟩ := v
  · rw [isLate_of_stamp?_eq_none rfl]
    rfl
  · rfl
  · have hends : ends last (.ok ⟨some a, stamp⟩) = isLate last (.ok ⟨some a, stamp⟩) := rfl
    rw [stops, hends, overflow?, defect?]
    simp only [access?, Option.bind_some]
    cases a.units units <;> rfl

/-- A late line has no failure, and another one fails with its defect. -/
theorem failure?_eq (units : Grid) (last : Option Nat) (v : Except ReadingFault Entry) :
    failure? units last v = if isLate last v = true then none else defect? units v := by
  obtain e | ⟨_ | a, stamp⟩ := v
  · rw [isLate_of_stamp?_eq_none rfl]
    rfl
  · have hnone : defect? units (.ok ⟨none, stamp⟩) = none := rfl
    rw [failure?, hnone, ite_self]
    exact ite_self none
  · rw [failure?, overflow?, defect?]
    simp only [fault?, access?, Option.bind_some]
    cases a.units units <;> rfl

/-- The failure of the first end is the first defect before the deadline. -/
theorem find?_stops_bind_failure? (units : Grid) (last : Option Nat)
    (vs : List (Except ReadingFault Entry)) :
    (vs.find? (stops units last)).bind (failure? units last) =
      (vs.takeWhile fun v => !isLate last v).findSome? (defect? units) := by
  induction vs with
  | nil => rfl
  | cons v vs ih =>
    cases hlate : isLate last v with
    | true =>
      have hstops : stops units last v = true := by rw [stops_eq, hlate, Bool.true_or]
      rw [List.find?_cons_of_pos hstops, takeWhile_not_cons_of_pos hlate, Option.bind_some,
        failure?_eq, if_pos hlate, List.findSome?_nil]
    | false =>
      rw [takeWhile_not_cons_of_neg hlate, List.findSome?_cons]
      cases hdefect : defect? units v with
      | none =>
        have hgo : stops units last v = false := by rw [stops_eq, hlate, hdefect]; rfl
        rw [find?_cons_of_eq_false hgo, ih]
      | some f =>
        have hstops : stops units last v = true := by rw [stops_eq, hlate, hdefect]; rfl
        rw [List.find?_cons_of_pos hstops, Option.bind_some, failure?_eq, hlate, hdefect]
        rfl

/-- The lines before the first end are those before the deadline and the first defect. -/
theorem takeWhile_not_stops (units : Grid) (last : Option Nat)
    (vs : List (Except ReadingFault Entry)) :
    (vs.takeWhile fun v => !stops units last v) =
      (vs.takeWhile fun v => !isLate last v).takeWhile fun v => (defect? units v).isNone := by
  rw [List.takeWhile_takeWhile]
  congr 1
  funext v
  rw [stops_eq]
  cases isLate last v <;> cases defect? units v <;> rfl

end Line

namespace Measurement

/-- A measurement of a text fails exactly if a line before the deadline is refused or has an
access that cannot be spread. It reports the first such line, whichever of the two it is: that
line is the last one counted, the window has not been left, and the tally accounts for the
accesses on the lines before it. -/
theorem fault_of_text (format : Format) (mode : CacheMode) (hours : Option UInt64)
    (text : String) :
    let vs := Line.verdicts format hours.isSome ((Text.lines text).map .ok)
    let admitted := vs.takeWhile fun v => !Line.isLate (Line.deadline format hours vs) v
    let before := admitted.takeWhile fun v => (Line.defect? format.unitGrid v).isNone
    let m := run format mode hours (.ofText text)
    (m.fault.isSome = true ↔ ∃ v ∈ admitted, (Line.fault? v).isSome = true ∨
        ∃ a o, Line.access? v = some a ∧ a.units format.unitGrid = .error o) ∧
      m.fault = admitted.findSome? (Line.defect? format.unitGrid) ∧
      (m.fault.isSome = true →
        m.stats = { lines := before.length + 1
                    empty := before.countP Line.isEmpty
                    closed := false } ∧
          m.tally.units = format.unitGrid ∧ m.tally.blocks = mode.blocks format ∧
          m.tally.AccountsFor (before.filterMap Line.access?)) := by
  intro vs admitted before m
  obtain ⟨hfault, hstats, hunits, hblocks, haccount⟩ := run_eq format mode hours (.ofText text)
  rw [Content.lines_ofText] at hfault hstats haccount
  have hbefore : (vs.takeWhile fun v =>
      !Line.stops format.unitGrid (Line.deadline format hours vs) v) = before :=
    Line.takeWhile_not_stops _ _ vs
  have hfirst : m.fault = admitted.findSome? (Line.defect? format.unitGrid) :=
    hfault.trans (Line.find?_stops_bind_failure? _ _ vs)
  refine ⟨?_, hfirst, ?_⟩
  · rw [hfirst, List.findSome?_isSome_iff]
    simp only [Line.isSome_defect?_iff]
  · intro hsome
    -- a line that fails is the end, is not late and, as a line of a text, counts as read
    rw [hfault] at hsome
    obtain ⟨f, hf⟩ := Option.isSome_iff_exists.mp hsome
    obtain ⟨v, hv, hvf⟩ := Option.bind_eq_some_iff.mp hf
    have hlate : Line.isLate (Line.deadline format hours vs) v = false := by
      rw [Line.failure?_eq] at hvf
      split at hvf
      · exact nomatch hvf
      · rename_i h
        exact Bool.eq_false_iff.mpr h
    have hcounts : Line.counts v = true :=
      Line.counts_of_mem_verdictsFrom (List.mem_of_find?_eq_some hv)
    refine ⟨?_, hunits, hblocks, ?_⟩
    · refine hstats.trans ?_
      rw [hv, Progress.finalStats, Option.any_some, Option.any_some, hcounts]
      simp only [if_true, ← hbefore]
      rw [hlate]
    · rw [← hbefore]
      exact haccount

/-- Of an overflow on the third line and missing fields on the fourth the overflow is reported. -/
theorem fault_of_text_of_four_lines :
    let m := run .fiu .exact (some 1)
      (.ofText "5 1 p 0 0 R\n6 1 p 8 8 W\n7 1 p 18446744073709551612 64 R\n8 1 p\n")
    m.fault = some (.overflow ⟨18446744073709551612, 64⟩) ∧
      m.stats = { lines := 3, empty := 1, closed := false } ∧
      m.tally.AccountsFor [⟨8, 8, by decide⟩] := by
  intro m
  obtain ⟨_, hfirst, hcounted⟩ := fault_of_text .fiu .exact (some 1)
    "5 1 p 0 0 R\n6 1 p 8 8 W\n7 1 p 18446744073709551612 64 R\n8 1 p\n"
  have hfault : m.fault = some (.overflow ⟨18446744073709551612, 64⟩) :=
    hfirst.trans (by decide +kernel)
  obtain ⟨hstats, _, _, haccount⟩ := hcounted (by rw [hfault]; rfl)
  refine ⟨hfault, hstats.trans (by decide +kernel), ?_⟩
  convert haccount using 1
  decide +kernel

end Measurement

end Footprint

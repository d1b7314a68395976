import Footprint.Proofs.Measurement.Faults
import Footprint.Proofs.Trace.Limits

/-!
# Longer limits only add to a footprint

The accesses a measurement counts under a limit are the first of those it counts under a
longer one or without any, so the sets grow with the limit. A defect before a deadline is
also before every later one: if nothing goes wrong under a limit, nothing does under a
shorter one. A measurement without a limit tells nothing about one with a limit, which may
refuse a line for its timestamp alone.
-/

namespace Footprint

/-- A tally that accounts for more accesses has seen at least as much. -/
theorem Tally.AccountsFor.contains_mono {t t' : Tally} {as bs : List Access}
    (h : t.AccountsFor as) (h' : t'.AccountsFor bs) (hunits : t'.units = t.units)
    (hblocks : t'.blocks = t.blocks) (hsubset : as ⊆ bs) {u : UInt64}
    (hu : t.seen.contains u = true) : t'.seen.contains u = true := by
  rw [h.seen] at hu
  rw [h'.seen, hunits, hblocks]
  obtain ⟨a, ha, hn⟩ := hu
  exact ⟨a, hsubset ha, hn⟩

namespace Line

/-- A measurement that ends at a line under the longer limit ends there under the shorter one. -/
theorem stops_of_longer {format : Format} {units : Grid} {shorter longer : UInt64}
    (h : shorter ≤ longer) {vs : List (Except ReadingFault Entry)}
    {v : Except ReadingFault Entry}
    (hstops : stops units (deadline format (some longer) vs) v = true) :
    stops units (deadline format (some shorter) vs) v = true := by
  rw [stops, Bool.or_eq_true] at hstops ⊢
  exact hstops.imp_left (ends_of_longer h)

/-- Without a deadline only a defect ends a measurement, and it does so with a timestamp too. -/
theorem stops_none_untimed {units : Grid} {last : Option Nat} (e : Entry)
    (h : stops units none (.ok { e with timestamp := none }) = true) :
    stops units last (.ok e) = true := by
  have hoverflow : (overflow? units (.ok e)).isSome = true := h
  rw [stops, hoverflow, Bool.or_true]

end Line

namespace Measurement

/-- What is not wrong before a deadline is not wrong before an earlier one. -/
theorem fault_eq_none_of_longer {shorter longer : UInt64} (h : shorter ≤ longer) {format : Format}
    {mode : CacheMode} {content : Content}
    (hlonger : (run format mode (some longer) content).fault = none) :
    (run format mode (some shorter) content).fault = none := by
  have hshort := (run_eq format mode (some shorter) content).1
  have hlong := (run_eq format mode (some longer) content).1
  rw [Line.find?_stops_bind_failure?] at hshort hlong
  rw [hlonger, eq_comm, List.findSome?_eq_none_iff] at hlong
  rw [hshort, List.findSome?_eq_none_iff]
  intro v hv
  apply hlong
  exact (Line.takeWhile_not_prefix_of_imp (fun v => Line.isLate_of_longer h) _).subset hv

/-- The accesses that a measurement counts; the mode has no part in it. -/
def counted (format : Format) (hours : Option UInt64) (content : Content) : List Access :=
  let vs := Line.verdicts format hours.isSome content.lines
  (vs.takeWhile fun v =>
    !Line.stops format.unitGrid (Line.deadline format hours vs) v).filterMap Line.access?

/-- The accesses counted under a limit are the first of those counted under a longer one. -/
theorem counted_prefix_of_longer {shorter longer : UInt64} (h : shorter ≤ longer)
    (format : Format) (content : Content) :
    counted format (some shorter) content <+: counted format (some longer) content :=
  (Line.takeWhile_not_prefix_of_imp (fun _ => Line.stops_of_longer h) _).filterMap _

/-- The accesses counted under a limit are the first of those counted without one. -/
theorem counted_prefix_unlimited (format : Format) (hours : UInt64) (content : Content) :
    counted format (some hours) content <+: counted format none content :=
  Line.filterMap_access?_prefix_untimed (fun _ => rfl) Line.stops_none_untimed format 1
    content.lines

/-- A measurement that counts more accesses sees at least as much. -/
theorem elements_subset_of_counted_prefix {format : Format} {hours hours' : Option UInt64}
    {content : Content} (h : counted format hours content <+: counted format hours' content)
    (mode : CacheMode) :
    (run format mode hours content).tally.seen.elements ⊆
      (run format mode hours' content).tally.seen.elements := by
  obtain ⟨_, _, hunits, hblocks, haccount⟩ := run_eq format mode hours content
  obtain ⟨_, _, hunits', hblocks', haccount'⟩ := run_eq format mode hours' content
  intro u hu
  rw [WorkingSet.mem_elements] at hu ⊢
  exact haccount.contains_mono haccount' (hunits'.trans hunits.symm) (hblocks'.trans hblocks.symm)
    h.subset hu

/-- The accesses given under a limit are the first of those given under a longer one, and these
are the first of those given without a limit. If nothing goes wrong under the longer limit, then
nothing does under the shorter one; and whatever goes wrong, each set is part of the next. -/
theorem limits_nested {shorter longer : UInt64} (h : shorter ≤ longer) (format : Format)
    (content : Content) :
    let given := fun hours => (Reading.start format hours content).accesses
    given (some shorter) <+: given (some longer) ∧ given (some longer) <+: given none ∧
      ∀ mode,
        ((run format mode (some longer) content).fault = none →
          (run format mode (some shorter) content).fault = none) ∧
        (run format mode (some shorter) content).tally.seen.elements ⊆
          (run format mode (some longer) content).tally.seen.elements ∧
        (run format mode (some longer) content).tally.seen.elements ⊆
          (run format mode none content).tally.seen.elements := by
  refine ⟨Reading.accesses_prefix_of_longer h format content,
    Reading.accesses_prefix_unlimited format longer content, fun mode => ⟨?_, ?_, ?_⟩⟩
  · exact fault_eq_none_of_longer h
  · exact elements_subset_of_counted_prefix (counted_prefix_of_longer h format content) mode
  · exact elements_subset_of_counted_prefix (counted_prefix_unlimited format longer content) mode

/-- The third line is stamped after one hour, the fourth after two, and the fifth never. -/
theorem limits_nested_of_five_lines :
    let content := Content.ofText
      "7 1 p 0 8\n9 1 p 80 0\n5400000000000 1 p 8 8\n10800000000000 1 p 16 8\nlater 1 p 24 8\n"
    let given := fun hours => (Reading.start .fiu hours content).accesses
    (1 : UInt64) ≤ 2 ∧ given (some 1) <+: given (some 2) ∧ given (some 2) <+: given none ∧
      ((given (some 1)).length, (given (some 2)).length, (given none).length) = (1, 2, 4) ∧
      (run .fiu .exact (some 2) content).fault = none ∧
      (run .fiu .exact (some 1) content).fault = none ∧
      (run .fiu .exact (some 1) content).tally.seen.elements ⊆
        (run .fiu .exact (some 2) content).tally.seen.elements := by
  intro content given
  have h : (1 : UInt64) ≤ 2 := by decide
  obtain ⟨hlonger, hunlimited, hmode⟩ := limits_nested h .fiu content
  obtain ⟨hfault, hseen, _⟩ := hmode .exact
  have hnone : (run .fiu .exact (some 2) content).fault = none := by decide +kernel
  exact ⟨h, hlonger, hunlimited, by decide +kernel, hnone, hfault hnone, hseen⟩

end Measurement

end Footprint

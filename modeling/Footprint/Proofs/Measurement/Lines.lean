import Footprint.Measurement
import Footprint.Proofs.Tally.Coarsening
import Footprint.Proofs.Trace.Transcript

/-!
# Measurements follow the verdicts on their lines

A measurement goes through the lines of its reading and adds every access that is
given to the tally. It stops at the first line that ends the reading or whose access
cannot be spread, so one line alone decides the fault, and the tally accounts for
the accesses on the lines before it. Without a fault these are all accesses that the
time window admits, and the footprint is the number of their marks.
-/

namespace Footprint

namespace Line

/-- The refusal of the access on a line. -/
def overflow? (units : Grid) (v : Except ReadingFault Entry) : Option Access.Overflow :=
  (access? v).bind fun a =>
    match a.units units with
    | .ok _ => none
    | .error e => some e

/-- The line is the end of a measurement. -/
def stops (units : Grid) (last : Option Nat) (v : Except ReadingFault Entry) : Bool :=
  ends last v || (overflow? units v).isSome

/-- What went wrong on a line that is the end; after the deadline nothing does. -/
def failure? (units : Grid) (last : Option Nat) (v : Except ReadingFault Entry) :
    Option MeasurementFault :=
  match fault? v with
  | some e => some (.reading e)
  | none => if isLate last v then none else (overflow? units v).map .overflow

section Stops

variable {units : Grid} {last : Option Nat} {v : Except ReadingFault Entry}

/-- A line that is not the end and has an access has one that can be spread. -/
theorem exists_units_of_not_stops (h : stops units last v = false) {a : Access}
    (ha : access? v = some a) : ∃ s, a.units units = .ok s := by
  have hnone : (overflow? units v).isSome = false := (Bool.or_eq_false_iff.mp h).2
  rw [overflow?, ha, Option.bind_some] at hnone
  cases hs : a.units units with
  | ok s => exact ⟨s, rfl⟩
  | error e =>
    rw [hs] at hnone
    exact nomatch hnone

/-- An end that does not end the reading has an access that is refused. -/
theorem exists_overflow_of_stops (h : stops units last v = true) (hgo : ends last v = false) :
    ∃ a stamp e, v = .ok ⟨some a, stamp⟩ ∧ a.units units = .error e ∧
      failure? units last v = some (.overflow e) := by
  rw [stops, hgo, Bool.false_or] at h
  obtain e | ⟨_ | a, stamp⟩ := v
  · exact nomatch h
  · exact nomatch h
  · have hlate : isLate last (.ok ⟨some a, stamp⟩) = false := hgo
    have hoverflow : overflow? units (.ok ⟨some a, stamp⟩) =
        match a.units units with
        | .ok _ => none
        | .error e => some e := rfl
    cases hs : a.units units with
    | ok s =>
      rw [hoverflow, hs] at h
      exact nomatch h
    | error e =>
      refine ⟨a, stamp, e, rfl, hs, ?_⟩
      rw [failure?, hlate, hoverflow, hs]
      rfl

/-- An end on which nothing fails is late. -/
theorem isLate_of_failure?_eq_none (hstops : stops units last v = true)
    (h : failure? units last v = none) : isLate last v = true := by
  cases hlate : isLate last v with
  | true => rfl
  | false =>
    cases hfault : fault? v with
    | some e =>
      rw [failure?, hfault] at h
      cases h
    | none =>
      simp only [failure?, hfault, hlate, Bool.false_eq_true, if_false, Option.map_eq_none_iff] at h
      rw [stops, ends, hfault, hlate, h] at hstops
      cases hstops

/-- Where nothing fails, only a late line is an end. -/
theorem takeWhile_not_stops_of_no_failure {vs : List (Except ReadingFault Entry)}
    (h : (vs.find? (stops units last)).bind (failure? units last) = none) :
    vs.takeWhile (fun v => !stops units last v) = vs.takeWhile fun v => !isLate last v := by
  induction vs with
  | nil => rfl
  | cons v vs ih =>
    cases hstops : stops units last v with
    | true =>
      rw [List.find?_cons_of_pos hstops, Option.bind_some] at h
      have hlate : isLate last v = true := isLate_of_failure?_eq_none hstops h
      rw [takeWhile_not_cons_of_pos hstops, takeWhile_not_cons_of_pos hlate]
    | false =>
      rw [find?_cons_of_eq_false hstops] at h
      have hgo : ends last v = false := (Bool.or_eq_false_iff.mp hstops).1
      have hlate : isLate last v = false := (Bool.or_eq_false_iff.mp hgo).2
      rw [takeWhile_not_cons_of_neg hstops, takeWhile_not_cons_of_neg hlate, ih h]

end Stops

end Line

namespace Measurement

/-- Readings that go on in the same way are measured in the same way. -/
theorem finish_congr {r s : Reading} (h : r.next = s.next) (t : Tally) :
    finish r t = finish s t := by
  cases hs : s.next with
  | mk step u =>
    rw [hs] at h
    cases step with
    | access a => rw [finish_of_access h, finish_of_access hs]
    | fault e => rw [finish_of_fault h, finish_of_fault hs]
    | finished => rw [finish_of_finished h, finish_of_finished hs]

section Step

variable {format : Format} {hours : Option UInt64} {last : Option Nat}
  {before after : List (Except ReadingFault Entry)} {line : Except Content.Fault String}
  {v : Except ReadingFault Entry} {t : Tally}

/-- A line that is not the end adds its access to the account, if it has one. -/
theorem finish_past_of_not_stops {as : List Access}
    (hv : Line.verdict format hours.isSome (before.length + 1) line = v)
    (hlast : Line.deadline format hours (before ++ v :: after) = last)
    (ht : t.AccountsFor as) (h : Line.stops t.units last v = false)
    (rest : List (Except Content.Fault String)) :
    ∃ t' : Tally, finish (.past format hours before (line :: rest)) t =
        finish (.past format hours (before ++ [v]) rest) t' ∧
      t'.units = t.units ∧ t'.blocks = t.blocks ∧
      t'.AccountsFor (as ++ (Line.access? v).toList) := by
  obtain ⟨hempty, _, hnone⟩ | hend | ⟨a, ha, hl, _, _⟩ := Line.kinds last v
  · refine ⟨t, finish_congr (Reading.next_past_of_isEmpty hv hempty rest) t, rfl, rfl, ?_⟩
    rwa [hnone, Option.toList_none, List.append_nil]
  · rw [Line.stops, hend] at h
    exact nomatch h
  · obtain ⟨s, hs⟩ := Line.exists_units_of_not_stops h ha
    refine ⟨t.take s, ?_, rfl, rfl, ?_⟩
    · rw [finish_of_access (Reading.next_past_of_access hv ha (by rw [hlast, hl]) rest),
        Tally.add, hs]
      rfl
    · rw [ha, Option.toList_some]
      exact ht.take hs

/-- The end decides the fault and the counters of the reading, and leaves the tally alone. -/
theorem finish_past_of_stops
    (hv : Line.verdict format hours.isSome (before.length + 1) line = v)
    (hlast : Line.deadline format hours (before ++ v :: after) = last)
    (h : Line.stops t.units last v = true) (rest : List (Except Content.Fault String)) :
    ∃ r : Reading, finish (.past format hours before (line :: rest)) t =
        ⟨r, t, Line.failure? t.units last v⟩ ∧
      r.stats = Progress.finalStats last before (some v) := by
  cases hend : Line.ends last v with
  | true =>
    obtain ⟨r, hstep, _, hstats⟩ := Reading.next_past_of_ends hv hlast hend rest
    refine ⟨r, ?_, hstats⟩
    cases hf : Line.fault? v with
    | some e =>
      rw [hf] at hstep
      rw [finish_of_fault hstep, Line.failure?, hf]
    | none =>
      rw [hf] at hstep
      rw [Line.ends, hf, Option.isSome_none, Bool.false_or] at hend
      rw [finish_of_finished hstep, Line.failure?, hf, hend]
      rfl
  | false =>
    obtain ⟨a, stamp, e, rfl, hs, hfailure⟩ := Line.exists_overflow_of_stops h hend
    have hl : Line.isLate last (.ok ⟨some a, stamp⟩) = false := hend
    have hstep := Reading.next_past_of_access hv rfl (by rw [hlast, hl]) rest
    refine ⟨.past format hours (before ++ [.ok ⟨some a, stamp⟩]) rest, ?_, ?_⟩
    · rw [finish_of_access hstep, Tally.add, hs, hfailure]
      rfl
    · rw [Progress.finalStats_of_access format hours, hl]
      rfl

end Step

/-- The first line that stops a measurement decides its fault and its counters, and the tally
accounts for the accesses on the lines before it. -/
theorem finish_past {format : Format} {hours : Option UInt64} {last : Option Nat}
    {before vs : List (Except ReadingFault Entry)} {lines : List (Except Content.Fault String)}
    (hvs : Line.verdictsFrom format hours.isSome (before.length + 1) lines = vs)
    (hlast : Line.deadline format hours (before ++ vs) = last)
    {t : Tally} {as : List Access} (ht : t.AccountsFor as) :
    let m := finish (.past format hours before lines) t
    let passed := vs.takeWhile fun v => !Line.stops t.units last v
    let stop := vs.find? (Line.stops t.units last)
    m.fault = stop.bind (Line.failure? t.units last) ∧
      m.stats = Progress.finalStats last (before ++ passed) stop ∧
      m.tally.units = t.units ∧ m.tally.blocks = t.blocks ∧
      m.tally.AccountsFor (as ++ passed.filterMap Line.access?) := by
  induction lines generalizing before vs t as with
  | nil =>
    subst hvs
    have hend : (Reading.past format hours before []).next =
        (.finished, .past format hours before []) := Reading.next_of_pending_eq_nil rfl
    intro m passed stop
    have hm : m = ⟨.past format hours before [], t, none⟩ := finish_of_finished hend t
    have hpassed : passed = [] := rfl
    rw [hm, hpassed, List.append_nil]
    exact ⟨rfl, rfl, rfl, rfl, by rwa [List.filterMap_nil, List.append_nil]⟩
  | cons line rest ih =>
    rw [Line.verdictsFrom] at hvs
    generalize hv : Line.verdict format hours.isSome (before.length + 1) line = v at hvs
    subst hvs
    have hlength : (before ++ [v]).length + 1 = before.length + 1 + 1 := by
      rw [List.length_append, List.length_singleton]
    have hrest {t : Tally} {as : List Access} (ht : t.AccountsFor as) :=
      ih (congrArg (Line.verdictsFrom format hours.isSome · rest) hlength)
        (by rw [← List.append_cons, hlast]) ht
    generalize Line.verdictsFrom format hours.isSome (before.length + 1 + 1) rest = vs
      at hlast hrest ⊢
    cases hstops : Line.stops t.units last v with
    | true =>
      obtain ⟨r, hr, hstats⟩ := finish_past_of_stops hv hlast hstops rest
      rw [hr, Line.takeWhile_not_cons_of_pos hstops, List.find?_cons_of_pos hstops]
      refine ⟨rfl, ?_, rfl, rfl, ?_⟩
      · rwa [List.append_nil]
      · rwa [List.filterMap_nil, List.append_nil]
    | false =>
      obtain ⟨t', ht', hunits, hblocks, haccount⟩ :=
        finish_past_of_not_stops hv hlast ht hstops rest
      obtain ⟨hfault, hstats, hunits', hblocks', haccount'⟩ := hrest haccount
      rw [hunits] at hfault hstats hunits' haccount'
      rw [← List.append_cons before] at hstats
      rw [List.append_assoc, ← Line.filterMap_access?_cons] at haccount'
      rw [ht', Line.takeWhile_not_cons_of_neg hstops, Line.find?_cons_of_eq_false hstops]
      exact ⟨hfault, hstats, hunits', hblocks'.trans hblocks, haccount'⟩

/-- A measurement of a content follows the verdicts on its lines from the first one on. -/
theorem run_eq (format : Format) (mode : CacheMode) (hours : Option UInt64) (content : Content) :
    let vs := Line.verdicts format hours.isSome content.lines
    let last := Line.deadline format hours vs
    let passed := vs.takeWhile fun v => !Line.stops format.unitGrid last v
    let stop := vs.find? (Line.stops format.unitGrid last)
    let m := run format mode hours content
    m.fault = stop.bind (Line.failure? format.unitGrid last) ∧
      m.stats = Progress.finalStats last passed stop ∧
      m.tally.units = format.unitGrid ∧ m.tally.blocks = mode.blocks format ∧
      m.tally.AccountsFor (passed.filterMap Line.access?) := by
  intro vs last passed stop m
  have hm : m = finish (.past format hours [] content.lines) (.start format mode) := by
    rw [← Reading.start_eq_past]
    rfl
  rw [hm]
  exact @finish_past format hours last [] vs content.lines rfl rfl _ []
    (Tally.accountsFor_onGrids _ _)

/-- The footprint of a measurement is the number of marks of the accesses before its end. -/
theorem toNat_footprint_run (format : Format) (mode : CacheMode) (hours : Option UInt64)
    (content : Content) :
    let vs := Line.verdicts format hours.isSome content.lines
    let passed := vs.takeWhile fun v =>
      !Line.stops format.unitGrid (Line.deadline format hours vs) v
    (run format mode hours content).totals.footprint.toNat =
      (Tally.marks format.unitGrid (mode.blocks format)
        (passed.filterMap Line.access?)).card := by
  intro vs passed
  obtain ⟨_, _, hunits, hblocks, haccount⟩ := run_eq format mode hours content
  have hpitch : 2 ≤ format.unitGrid.pitch.toNat := by cases format <;> decide
  have hfootprint := haccount.toNat_footprint (by rwa [hunits])
  rwa [hunits, hblocks] at hfootprint

/-- A measurement of a text that ends without a fault reports the number of distinct marks,
computed address by address, of the accesses on the admitted lines: all lines, or under a limit
those before the first that is stamped after the deadline. -/
theorem footprint_eq_card (format : Format) (mode : CacheMode) (hours : Option UInt64)
    (text : String) (h : (run format mode hours (.ofText text)).fault = none) :
    let vs := Line.verdicts format hours.isSome ((Text.lines text).map .ok)
    let admitted := vs.takeWhile fun v => !Line.isLate (Line.deadline format hours vs) v
    (run format mode hours (.ofText text)).totals.footprint.toNat =
      (Tally.marks format.unitGrid (mode.blocks format)
        (admitted.filterMap Line.access?)).card := by
  intro vs admitted
  have hfault := (run_eq format mode hours (.ofText text)).1
  have hfootprint := toNat_footprint_run format mode hours (.ofText text)
  rw [Content.lines_ofText] at hfault hfootprint
  have hadmitted := Line.takeWhile_not_stops_of_no_failure (hfault.symm.trans h)
  refine hfootprint.trans ?_
  rw [hadmitted]

/-- Three accesses in two blocks, the third of them stamped after the only hour. -/
theorem footprint_eq_card_of_three_lines :
    let text := "0 1 p 0 129 R\n5 1 p 120 16 W\n3600000000001 1 p 999 8 R\n"
    (run .fiu .dmCache (some 1) (.ofText text)).fault = none ∧
      (run .fiu .dmCache (some 1) (.ofText text)).totals.footprint.toNat = 2 := by
  intro text
  have hfault : (run .fiu .dmCache (some 1) (.ofText text)).fault = none := by decide +kernel
  exact ⟨hfault, (footprint_eq_card .fiu .dmCache (some 1) text hfault).trans
    (by decide +kernel)⟩

end Measurement

end Footprint

import Mathlib.Algebra.GroupWithZero.Nat
import Footprint.Proofs.Measurement.Faults
import Footprint.Proofs.Synthetic.Bounds
import Footprint.Proofs.Synthetic.RoundTrip

/-!
# Measurements of synthetic traces

Every access of a synthetic trace lies far below the greatest word, so all of them can be spread
and a measurement of the trace never fails. Since times grow, the first request after the end of
a limit is followed only by later ones: stopping there leaves the same requests as passing over
every request that is late.
-/

namespace Footprint.Synthetic

variable {format : Format}

namespace Request

/-- The access of a request that keeps to its regions can be spread. -/
theorem exists_units_of_fits {r : Request} (h : r.Fits format) {timed : Bool} {a : Access}
    (ha : (r.entry timed).access = some a) : ∃ s, a.units format.unitGrid = .ok s := by
  obtain ⟨hstart, hlength⟩ := h
  obtain ⟨hs, hl⟩ := Access.ofRequest?_eq_some_iff.mp ha
  have hsize : UInt64.size = 18446744073709551616 := rfl
  have hall : allUnits.toNat = 1048576 := rfl
  have hlongest : longestUnits.toNat = 32 := rfl
  have hdvd : format.unitGrid.pitch.toNat ∣ UInt64.size := by cases format <;> decide
  have hsmall : format.unitGrid.pitch.toNat ≤ 512 := by cases format <;> decide
  rw [Access.exists_units_iff_of_dvd hdvd, hs, hl]
  rw [hall] at hstart
  rw [hlongest] at hlength
  omega

/-- The line of a request that keeps to its regions has no defect. -/
theorem defect?_entry {r : Request} (h : r.Fits format) (timed : Bool) :
    Line.defect? format.unitGrid (.ok (r.entry timed)) = none := by
  rw [← Option.not_isSome_iff_eq_none, Line.isSome_defect?_iff]
  rintro (hfault | ⟨a, o, ha, ho⟩)
  · exact absurd hfault Bool.false_ne_true
  · obtain ⟨s, hs⟩ := exists_units_of_fits h ha
    cases hs.symm.trans ho

/-- Without stamps no request is late. -/
theorem isLate_entry_untimed (r : Request) (last : Option Nat) :
    Line.isLate last (.ok (r.entry false)) = false := by
  apply Line.isLate_of_stamp?_eq_none
  rw [entry]
  cases Access.ofRequest? r.start r.length <;> rfl

/-- A request is stamped exactly if it is not empty. -/
theorem stamp?_entry_timed (r : Request) :
    Line.stamp? (.ok (r.entry true)) = if r.length = 0 then none else some r.timestamp := by
  rw [entry]
  by_cases h : r.length = 0
  · rw [Access.ofRequest?_eq_none_iff.mpr h, if_pos h]
    rfl
  · cases ha : Access.ofRequest? r.start r.length with
    | none => exact absurd (Access.ofRequest?_eq_none_iff.mp ha) h
    | some a =>
      rw [if_neg h]
      rfl

/-- A request is late exactly if it is not empty and stamped after the deadline. -/
theorem isLate_entry_timed (r : Request) (last : Nat) :
    Line.isLate (some last) (.ok (r.entry true)) =
      decide (r.length ≠ 0 ∧ last < r.timestamp.toNat) := by
  rw [Line.isLate, Option.any_some, stamp?_entry_timed]
  by_cases h : r.length = 0 <;> simp [h]

end Request

/-- The first request that is not empty anchors a limit. -/
theorem anchor_entries (rs : List Request) :
    Line.anchor (rs.map fun r => .ok (r.entry true)) =
      (rs.find? fun r => r.length ≠ 0).map Request.timestamp := by
  induction rs with
  | nil => rfl
  | cons r rest ih =>
    rw [Line.anchor] at ih ⊢
    rw [List.map_cons, List.findSome?_cons, r.stamp?_entry_timed, List.find?_cons]
    by_cases h : r.length = 0
    · simpa [h] using ih
    · simp [h]

/-- Stopping at the first late request leaves the same as passing over every late one, since no
request after it is stamped earlier. -/
theorem filter_takeWhile_not_late {last : Nat} {rs : List Request}
    (h : rs.Pairwise fun r s => r.timestamp < s.timestamp) :
    (rs.takeWhile fun r => !decide (r.length ≠ 0 ∧ last < r.timestamp.toNat)).filter
        (fun r => r.length ≠ 0) =
      rs.filter fun r => r.length ≠ 0 ∧ r.timestamp.toNat ≤ last := by
  induction rs with
  | nil => rfl
  | cons r rest ih =>
    obtain ⟨hlater, hrest⟩ := List.pairwise_cons.mp h
    by_cases hlate : r.length ≠ 0 ∧ last < r.timestamp.toNat
    · -- the requests after a late one are stamped later still
      have hnone : ∀ s ∈ r :: rest, ¬ (s.length ≠ 0 ∧ s.timestamp.toNat ≤ last) := by
        rintro s hs ⟨_, hstamp⟩
        rcases List.mem_cons.mp hs with rfl | hs
        · omega
        · have hless := UInt64.lt_iff_toNat_lt.mp (hlater s hs)
          omega
      rw [List.takeWhile_cons_of_neg (by simpa using hlate), List.filter_nil, eq_comm,
        List.filter_eq_nil_iff]
      simpa using hnone
    · have hgo : (!decide (r.length ≠ 0 ∧ last < r.timestamp.toNat)) = true := by
        rw [decide_eq_false hlate, Bool.not_false]
      rw [List.takeWhile_cons, hgo, if_pos rfl]
      by_cases hempty : r.length = 0
      · simpa [hempty] using ih hrest
      · have hearly : r.timestamp.toNat ≤ last :=
          Nat.le_of_not_lt fun hlast => hlate ⟨hempty, hlast⟩
        simpa [hempty, hearly] using ih hrest

/-- The lines of a synthetic trace say what its requests are. -/
theorem verdicts_render (format : Format) (timed : Bool) (rs : List Request) :
    Line.verdicts format timed (Content.ofText (render format rs)).lines =
      rs.map fun r => .ok (r.entry timed) := by
  have hlines : (Content.ofText (render format rs)).lines =
      (rs.map (·.render format)).map .ok := by
    rw [Content.lines_ofText, lines_render]
  rw [Line.verdicts, hlines, verdictsFrom_render, List.map_map]
  rfl

/-- A reading of a synthetic trace gives the accesses of the requests before the first late
one. -/
theorem accesses_render (format : Format) (hours : Option UInt64) (rs : List Request) :
    let last := Line.deadline format hours (rs.map fun r => .ok (r.entry hours.isSome))
    (Reading.start format hours (.ofText (render format rs))).accesses =
      (rs.takeWhile fun r => !Line.isLate last (.ok (r.entry hours.isSome))).filterMap
        fun r => (r.entry false).access := by
  intro last
  rw [Reading.accesses_start, verdicts_render, Line.given, List.takeWhile_map, List.filterMap_map]
  rfl

/-- What is not empty is the rest. -/
theorem length_filter_nonempty (rs : List Request) :
    (rs.filter fun r => r.length ≠ 0).length =
      rs.length - rs.countP fun r => r.length = 0 := by
  have hparts := rs.length_eq_countP_add_countP fun r => r.length ≠ 0
  rw [← List.countP_eq_length_filter, hparts]
  simp only [decide_eq_true_eq, not_not, Nat.add_sub_cancel]

/-- Without a limit the requests given are those that are not empty. -/
theorem map_accesses_unlimited (format : Format) (rs : List Request) :
    (Reading.start format none (.ofText (render format rs))).accesses.map
        (fun a => (a.start, a.length)) =
      (rs.filter fun r => r.length ≠ 0).map fun r => (r.start, r.length) := by
  have hpassed (last : Option Nat) :
      rs.takeWhile (fun r => !Line.isLate last (.ok (r.entry false))) = rs := by
    rw [List.takeWhile_eq_self_iff]
    intro r _
    rw [r.isLate_entry_untimed, Bool.not_false]
  rw [accesses_render, Option.isSome_none, hpassed, map_filterMap_access_entry]

/-- Under a limit the requests given are those that are not empty and not stamped after its end. -/
theorem map_accesses_limited (format : Format) (hours : UInt64) {rs : List Request}
    (h : rs.Pairwise fun r s => r.timestamp < s.timestamp) :
    (Reading.start format (some hours) (.ofText (render format rs))).accesses.map
        (fun a => (a.start, a.length)) =
      (rs.filter fun r => r.length ≠ 0 ∧ ∀ first ∈ rs.find? fun r => r.length ≠ 0,
        r.timestamp.toNat ≤ first.timestamp.toNat + hours.toNat * format.hourTicks.toNat).map
        fun r => (r.start, r.length) := by
  rw [accesses_render, map_filterMap_access_entry]
  simp only [Option.isSome_some, Line.deadline, Option.bind_some, anchor_entries]
  cases hfirst : rs.find? fun r => r.length ≠ 0 with
  | none =>
    -- every request is empty
    have hempty := List.find?_eq_none.mp hfirst
    rw [List.filter_eq_nil_iff.mpr, List.filter_eq_nil_iff.mpr]
    · intro r hr hadmitted
      exact hempty r hr (decide_eq_true (of_decide_eq_true hadmitted).1)
    · intro r hr
      exact hempty r ((List.takeWhile_sublist _).subset hr)
  | some first =>
    simp only [Option.map_some, Request.isLate_entry_timed]
    rw [filter_takeWhile_not_late h]
    refine congrArg _ (List.filter_congr fun r _ => decide_eq_decide.mpr ?_)
    simp only [Window.exactLast, Option.mem_def, Option.some.injEq, forall_eq']

section Fits

variable {rs : List Request} (hfits : ∀ r ∈ rs, r.Fits format)

include hfits

/-- A measurement of requests that keep to their regions never fails, and counts the accesses
that its reading gives. -/
theorem run_render (mode : CacheMode) (hours : Option UInt64) :
    let m := Measurement.run format mode hours (.ofText (render format rs))
    m.fault = none ∧
      m.tally.AccountsFor (Reading.start format hours (.ofText (render format rs))).accesses := by
  intro m
  obtain ⟨hfault, _, _, _, haccount⟩ :=
    Measurement.run_eq format mode hours (.ofText (render format rs))
  rw [verdicts_render] at hfault haccount
  have hnone : m.fault = none := by
    rw [hfault, Line.find?_stops_bind_failure?, List.findSome?_eq_none_iff]
    intro v hv
    obtain ⟨r, hr, rfl⟩ := List.mem_map.mp ((List.takeWhile_sublist _).subset hv)
    exact r.defect?_entry (hfits r hr) _
  have hpassed := Line.takeWhile_not_stops_of_no_failure (hfault.symm.trans hnone)
  refine ⟨hnone, ?_⟩
  rw [hpassed, List.takeWhile_map, List.filterMap_map] at haccount
  rw [accesses_render]
  exact haccount

/-- Without a limit all requests are counted, and the empty ones among them. -/
theorem stats_run_render (mode : CacheMode) :
    (Measurement.run format mode none (.ofText (render format rs))).stats =
      { lines := rs.length, empty := rs.countP fun r => r.length = 0, closed := false } := by
  obtain ⟨_, hstats, _⟩ := Measurement.run_eq format mode none (.ofText (render format rs))
  have hgo : ∀ v ∈ rs.map (fun r => .ok (r.entry false)),
      Line.stops format.unitGrid none v = false := by
    rw [List.forall_mem_map]
    intro r hr
    rw [Line.stops_eq, r.defect?_entry (hfits r hr), r.isLate_entry_untimed]
    rfl
  have hpassed : (rs.map fun r => .ok (r.entry false)).takeWhile
      (fun v => !Line.stops format.unitGrid none v) = rs.map fun r => .ok (r.entry false) := by
    rw [List.takeWhile_eq_self_iff]
    intro v hv
    rw [hgo v hv, Bool.not_false]
  have hstop : (rs.map fun r => .ok (r.entry false)).find? (Line.stops format.unitGrid none) =
      none := by
    rw [List.find?_eq_none]
    intro v hv
    rw [hgo v hv]
    exact Bool.false_ne_true
  have hlast (vs : List (Except ReadingFault Entry)) : Line.deadline format none vs = none := rfl
  rw [Option.isSome_none, verdicts_render, hlast, hpassed, hstop] at hstats
  rw [hstats, Progress.finalStats, List.length_map, List.countP_map]
  simp only [Function.comp_def, Line.isEmpty_ok, Request.isNone_access_entry]
  rfl

/-- The counter of accesses is exact as long as there are fewer requests than words. -/
theorem toNat_accesses_run_render (mode : CacheMode) (hours : Option UInt64)
    (hwords : rs.length < UInt64.size) :
    (Measurement.run format mode hours (.ofText (render format rs))).totals.accesses.toNat =
      (Reading.start format hours (.ofText (render format rs))).accesses.length := by
  obtain ⟨_, haccount⟩ := run_render hfits mode hours
  have hfewer : (Reading.start format hours (.ofText (render format rs))).accesses.length ≤
      rs.length := by
    rw [accesses_render]
    exact (List.length_filterMap_le _ _).trans (List.takeWhile_sublist _).length_le
  rw [← haccount.accesses]
  apply UInt64.toNat_ofNat_of_lt'
  rw [haccount.accesses]
  exact Nat.lt_of_le_of_lt hfewer hwords

end Fits

/-- Up to `2 ^ 40` synthetic requests are those of exact arithmetic: each is stamped at least one
tick and at most two milliseconds after the one before, and all keep to their regions. So a
measurement of their trace never fails. Without a limit it counts all of them as lines, the empty
ones as empty and the others as accesses; under a limit it counts exactly those that are not empty
and stamped no later than so many hours after the first of them. -/
theorem requests_measured (format : Format) (n : Nat) (seed : UInt64) (h : n ≤ 2 ^ 40) :
    let rs := requests format n seed
    let text := Content.ofText (render format rs)
    let tick := (millisecondTicks format).toNat
    let pitch := format.unitGrid.pitch.toNat
    let empty := rs.countP fun r => r.length = 0
    rs.map Request.numbers = Exact.requests format n seed ∧ rs.length = n ∧
      (rs.Pairwise fun r s => r.timestamp < s.timestamp) ∧
      (firstTime format :: rs.map Request.timestamp).IsChain
        (fun s t => s.toNat + 1 ≤ t.toNat ∧ t.toNat ≤ s.toNat + 2 * tick) ∧
      (∀ r ∈ rs, r.start.toNat < 2 ^ 20 * pitch ∧ r.length.toNat ≤ 32 * pitch) ∧
      ∀ mode,
        let whole := Measurement.run format mode none text
        whole.fault = none ∧ whole.stats = { lines := n, empty, closed := false } ∧
          whole.totals.accesses.toNat = n - empty ∧
          ∀ hours : UInt64,
            let limited := Measurement.run format mode (some hours) text
            let given := (Reading.start format (some hours) text).accesses
            let admitted := rs.filter fun r =>
              r.length ≠ 0 ∧ ∀ first ∈ rs.find? fun r => r.length ≠ 0,
                r.timestamp.toNat ≤ first.timestamp.toNat + hours.toNat * format.hourTicks.toNat
            limited.fault = none ∧ limited.tally.AccountsFor given ∧
              given.map (fun a => (a.start, a.length)) =
                admitted.map (fun r => (r.start, r.length)) ∧
              limited.totals.accesses.toNat = admitted.length := by
  intro rs text tick pitch empty
  obtain ⟨hexact, hlength, hchain, hfits⟩ := requests_exact h seed
  have hwords : rs.length < UInt64.size := by
    rw [hlength]
    exact Nat.lt_of_le_of_lt h (by decide)
  have hordered := pairwise_of_isChain hchain
  refine ⟨hexact, hlength, hordered, hchain, hfits, fun mode => ?_⟩
  intro whole
  refine ⟨(run_render hfits mode none).1, ?_, ?_, fun hours => ?_⟩
  · rw [← hlength]
    exact stats_run_render hfits mode
  · refine (toNat_accesses_run_render hfits mode none hwords).trans ?_
    have hlengths := congrArg List.length (map_accesses_unlimited format rs)
    rw [List.length_map, List.length_map] at hlengths
    rw [hlengths, length_filter_nonempty, ← hlength]
  · intro limited given admitted
    obtain ⟨hfault, haccount⟩ := run_render hfits mode (some hours)
    have hgiven := map_accesses_limited format hours hordered
    refine ⟨hfault, haccount, hgiven, ?_⟩
    have hlengths := congrArg List.length hgiven
    rw [List.length_map, List.length_map] at hlengths
    rw [← hlengths]
    exact toNat_accesses_run_render hfits mode (some hours) hwords

/-- Two requests, a quarter of a millisecond apart, are both counted in the first hour. -/
theorem requests_measured_of_two :
    2 ≤ 2 ^ 40 ∧
      requests .fiu 2 7 = [⟨89000060635, 4672, 45, true⟩, ⟨89000311077, 20928, 232, false⟩] ∧
      (Measurement.run .fiu .dmCache (some 1)
        (.ofText (render .fiu (requests .fiu 2 7)))).fault = none ∧
      (Measurement.run .fiu .dmCache (some 1)
        (.ofText (render .fiu (requests .fiu 2 7)))).totals.accesses.toNat = 2 := by
  have hrequests : requests .fiu 2 7 =
      [⟨89000060635, 4672, 45, true⟩, ⟨89000311077, 20928, 232, false⟩] := by
    decide +kernel
  have hbound : 2 ≤ 2 ^ 40 := by decide
  obtain ⟨_, _, _, _, _, hmode⟩ := requests_measured .fiu 2 7 hbound
  obtain ⟨_, _, _, hlimited⟩ := hmode .dmCache
  obtain ⟨hfault, _, _, hcount⟩ := hlimited 1
  refine ⟨hbound, hrequests, hfault, hcount.trans ?_⟩
  rw [hrequests]
  rfl

end Footprint.Synthetic

import Footprint.Proofs.Measurement.Concatenation
import Footprint.Proofs.Measurement.Limits

/-!
# The order and the repetition of lines

Without a limit a line is read in the same way wherever it stands, up to its number in a
fault. A measurement succeeds if every line is sound, and then it has seen the marks of
the accesses on all lines. So the lines may come in any order, and may be repeated: the
counters depend on how often every line occurs, the working set only on which lines occur.
-/

namespace Footprint

/-- The content of lines that hold no line feed, with one line feed after each of them. -/
def Content.ofLines (ls : List (List UInt8)) : Content :=
  ⟨ls.flatMap (· ++ [10]), none⟩

/-- The lines are found again, without their final carriage returns. -/
theorem Content.lines_ofLines {ls : List (List UInt8)} (h : ∀ l ∈ ls, 10 ∉ l) :
    (ofLines ls).lines = ls.map fun l => decode (dropReturn l) := by
  have hparts := lines_parts h List.not_mem_nil none
  rwa [List.append_nil, lastLine_nil, List.append_nil] at hparts

namespace Line

/-- What a line of bytes says apart from its number. -/
def reads (format : Format) (l : List UInt8) : Except ReadingFault Entry :=
  verdict format false 0 (Content.decode (Content.dropReturn l))

/-- Nothing is wrong with a line of bytes, wherever it stands. -/
def readsSound (format : Format) (l : List UInt8) : Bool :=
  isSound format.unitGrid (reads format l)

/-- What does not depend on the numbers of lines follows from what they say apart from them. -/
theorem map_verdictsFrom {α : Type} {f : Except ReadingFault Entry → α}
    (h : ∀ k v, f (later k v) = f v) (format : Format) (number : Nat) (ls : List (List UInt8)) :
    (verdictsFrom format false number
        (ls.map fun l => Content.decode (Content.dropReturn l))).map f =
      ls.map fun l => f (reads format l) := by
  induction ls generalizing number with
  | nil => rfl
  | cons l ls ih =>
    have hlater := verdict_later format false 0 number (Content.decode (Content.dropReturn l))
    rw [Nat.zero_add] at hlater
    rw [List.map_cons, verdictsFrom, List.map_cons, List.map_cons, ih, hlater, h, reads]

/-- Every line, followed by so many copies of itself. -/
def repeated {α : Type} (rs : List (α × Nat)) : List α :=
  rs.flatMap fun r => List.replicate (r.2 + 1) r.1

/-- Before the first line of some kind stand the same lines with their copies as without. -/
theorem mem_takeWhile_repeated {α : Type} {p : α → Bool} {rs : List (α × Nat)} {x : α} :
    x ∈ (repeated rs).takeWhile p ↔ x ∈ (rs.map Prod.fst).takeWhile p := by
  induction rs with
  | nil => rfl
  | cons r rs ih =>
    rw [repeated, List.flatMap_cons, ← repeated, List.map_cons]
    cases hp : p r.1 with
    | true =>
      have hcopies : ∀ y ∈ List.replicate (r.2 + 1) r.1, p y = true := by
        intro y hy
        rw [List.eq_of_mem_replicate hy, hp]
      rw [List.takeWhile_append_of_pos hcopies, List.takeWhile_cons_of_pos hp, List.mem_append,
        List.mem_cons, ih, List.mem_replicate]
      simp only [ne_eq, Nat.add_eq_zero_iff, one_ne_zero, and_false, not_false_eq_true, true_and]
    | false =>
      have hstop : ¬ p r.1 = true := by rw [hp]; exact Bool.false_ne_true
      rw [List.replicate_succ, List.cons_append, List.takeWhile_cons_of_neg hstop,
        List.takeWhile_cons_of_neg hstop]

/-- Copies are no other lines. -/
theorem mem_repeated {α : Type} {rs : List (α × Nat)} {x : α} :
    x ∈ repeated rs ↔ x ∈ rs.map Prod.fst := by
  have hself (xs : List α) : xs.takeWhile (fun _ => true) = xs :=
    List.takeWhile_eq_self_iff.mpr fun _ _ => rfl
  simpa only [hself] using @mem_takeWhile_repeated _ (fun _ => true) rs x

end Line

namespace Tally.AccountsFor

variable {t t' : Tally} {as bs : List Access}

/-- The order of the accesses does not matter. -/
theorem perm (h : t.AccountsFor as) (hperm : as.Perm bs) : t.AccountsFor bs where
  spread := fun a ha => h.spread a (hperm.mem_iff.mpr ha)
  seen := by
    intro u
    simp only [h.seen u, hperm.mem_iff]
  accesses := h.accesses.trans hperm.length_eq
  touched := by
    rw [h.touched, emitted, emitted]
    exact (hperm.map _).sum_eq

/-- Only which accesses are taken decides what is seen. -/
theorem elements_eq (h : t.AccountsFor as) (h' : t'.AccountsFor bs) (hunits : t'.units = t.units)
    (hblocks : t'.blocks = t.blocks) (hsame : ∀ a, a ∈ as ↔ a ∈ bs) :
    t.seen.elements = t'.seen.elements := by
  ext u
  rw [WorkingSet.mem_elements, WorkingSet.mem_elements]
  constructor
  · exact h.contains_mono h' hunits hblocks fun a => (hsame a).mp
  · exact h'.contains_mono h hunits.symm hblocks.symm fun a => (hsame a).mpr

end Tally.AccountsFor

namespace Measurement

variable {format : Format} {mode : CacheMode} {ls ms : List (List UInt8)}

/-- What a measurement of lines without a limit has done depends on what each line says apart from
its number. -/
theorem run_ofLines (format : Format) (mode : CacheMode) (h : ∀ l ∈ ls, 10 ∉ l) :
    let m := run format mode none (.ofLines ls)
    (m.fault = none ↔ ∀ l ∈ ls, Line.readsSound format l = true) ∧
      (m.fault = none →
        m.stats = { lines := ls.length
                    empty := ls.countP fun l => Line.isEmpty (Line.reads format l)
                    closed := false }) ∧
      m.tally.units = format.unitGrid ∧ m.tally.blocks = mode.blocks format ∧
      m.tally.AccountsFor
        ((ls.takeWhile (Line.readsSound format)).filterMap
          fun l => Line.access? (Line.reads format l)) := by
  intro m
  have hfollows : Follows format mode _ m := follows_run format mode (.ofLines ls)
  rw [Content.lines_ofLines h, Line.verdicts] at hfollows
  have hmap {α : Type} {f : Except ReadingFault Entry → α}
      (hf : ∀ k v, f (Line.later k v) = f v) := Line.map_verdictsFrom hf format 1 ls
  have hlength := Line.length_verdictsFrom format false 1
    (ls.map fun l => Content.decode (Content.dropReturn l))
  generalize Line.verdictsFrom format false 1 _ = vs at hfollows hmap hlength
  have hall : vs.all (Line.isSound format.unitGrid) = ls.all (Line.readsSound format) := by
    have hsound := congrArg (List.all · id) (hmap (Line.isSound_later format.unitGrid))
    rw [List.all_map, List.all_map] at hsound
    exact hsound
  have hempty : vs.countP Line.isEmpty = ls.countP fun l => Line.isEmpty (Line.reads format l) := by
    have hcount := congrArg (List.countP id) (hmap Line.isEmpty_later)
    rw [List.countP_map, List.countP_map] at hcount
    exact hcount
  have hpassed : (vs.takeWhile (Line.isSound format.unitGrid)).filterMap Line.access? =
      (ls.takeWhile (Line.readsSound format)).filterMap
        fun l => Line.access? (Line.reads format l) := by
    have hboth := congrArg (fun gists => (gists.takeWhile Prod.fst).filterMap Prod.snd)
      (hmap (f := fun v => (Line.isSound format.unitGrid v, Line.access? v)) fun k v => by
        rw [Line.isSound_later, Line.access?_later])
    simp only [List.takeWhile_map, List.filterMap_map] at hboth
    exact hboth
  refine ⟨?_, fun hfault => ?_, hfollows.units, hfollows.blocks, ?_⟩
  · rw [hfollows.fault, Line.findSome?_defect?_eq_none_iff, ← List.all_eq_true, hall,
      List.all_eq_true]
  · rw [hfollows.fault, Line.findSome?_defect?_eq_none_iff] at hfault
    rw [hfollows.stats, List.takeWhile_eq_self_iff.mpr hfault,
      Line.find?_eq_none_of_isSound hfault, Progress.finalStats, hempty, hlength, List.length_map]
    rfl
  · rw [← hpassed]
    exact hfollows.account

/-- Success asks the same of every line, so it depends only on which lines there are. -/
theorem fault_eq_none_congr (hls : ∀ l ∈ ls, 10 ∉ l) (hms : ∀ l ∈ ms, 10 ∉ l)
    (hsame : ∀ l, l ∈ ms ↔ l ∈ ls) :
    (run format mode none (.ofLines ms)).fault = none ↔
      (run format mode none (.ofLines ls)).fault = none := by
  rw [(run_ofLines format mode hls).1, (run_ofLines format mode hms).1]
  simp only [hsame]

/-- The working set depends only on which lines come before the first with a defect. -/
theorem elements_congr (hls : ∀ l ∈ ls, 10 ∉ l) (hms : ∀ l ∈ ms, 10 ∉ l)
    (hsame : ∀ l, l ∈ ms.takeWhile (Line.readsSound format) ↔
      l ∈ ls.takeWhile (Line.readsSound format)) :
    (run format mode none (.ofLines ms)).tally.seen.elements =
      (run format mode none (.ofLines ls)).tally.seen.elements := by
  obtain ⟨_, _, hunits, hblocks, haccount⟩ := run_ofLines format mode hls
  obtain ⟨_, _, hunits', hblocks', haccount'⟩ := run_ofLines format mode hms
  refine haccount'.elements_eq haccount (hunits.trans hunits'.symm)
    (hblocks.trans hblocks'.symm) fun a => ?_
  simp only [List.mem_filterMap, hsame]

/-- Lines that are measured without a fault are measured in any order with the same counters and the
same working set. -/
theorem eq_of_perm (hls : ∀ l ∈ ls, 10 ∉ l) (hms : ∀ l ∈ ms, 10 ∉ l) (hperm : ms.Perm ls)
    (hfault : (run format mode none (.ofLines ls)).fault = none) :
    let m := run format mode none (.ofLines ls)
    let m' := run format mode none (.ofLines ms)
    m'.totals = m.totals ∧ m'.stats = m.stats ∧ m'.tally.seen.elements = m.tally.seen.elements := by
  intro m m'
  have hfault' : m'.fault = none :=
    (fault_eq_none_congr hls hms fun _ => hperm.mem_iff).mpr hfault
  obtain ⟨hsound, hstats, hunits, hblocks, haccount⟩ := run_ofLines format mode hls
  obtain ⟨hsound', hstats', hunits', hblocks', haccount'⟩ := run_ofLines format mode hms
  rw [List.takeWhile_eq_self_iff.mpr (hsound.mp hfault)] at haccount
  rw [List.takeWhile_eq_self_iff.mpr (hsound'.mp hfault')] at haccount'
  obtain ⟨htotals, helements⟩ := haccount.totals_and_elements_eq
    (haccount'.perm (hperm.filterMap _)) (hunits'.trans hunits.symm) (hblocks'.trans hblocks.symm)
  refine ⟨htotals, ?_, helements⟩
  rw [hstats' hfault', hstats hfault, hperm.length_eq, hperm.countP_eq]

/-- The order of the lines is seen neither in whether a measurement without a limit succeeds nor, if
it does, in its counters and in the working set. Lines that occur again, wherever they do, change
neither success nor the working set; copies that directly follow their line leave the working set
as it is even if the measurement fails. -/
theorem order_and_copies_unseen (format : Format) (mode : CacheMode) {ls : List (List UInt8)}
    (h : ∀ l ∈ ls, 10 ∉ l) :
    let measured := fun lines => run format mode none (.ofLines lines)
    (∀ ms, ms.Perm ls →
        ((measured ms).fault = none ↔ (measured ls).fault = none) ∧
          ((measured ls).fault = none →
            (measured ms).totals = (measured ls).totals ∧
              (measured ms).stats = (measured ls).stats ∧
              (measured ms).tally.seen.elements = (measured ls).tally.seen.elements)) ∧
      (∀ ms, (∀ l, l ∈ ms ↔ l ∈ ls) →
        ((measured ms).fault = none ↔ (measured ls).fault = none) ∧
          ((measured ls).fault = none →
            (measured ms).tally.seen.elements = (measured ls).tally.seen.elements)) ∧
      ∀ rs, rs.map Prod.fst = ls →
        ((measured (Line.repeated rs)).fault = none ↔ (measured ls).fault = none) ∧
          (measured (Line.repeated rs)).tally.seen.elements =
            (measured ls).tally.seen.elements := by
  intro measured
  have hlines {ms : List (List UInt8)} (hsame : ∀ l, l ∈ ms ↔ l ∈ ls) : ∀ l ∈ ms, 10 ∉ l :=
    fun l hl => h l ((hsame l).mp hl)
  refine ⟨fun ms hperm => ?_, fun ms hsame => ?_, ?_⟩
  · have hsame : ∀ l, l ∈ ms ↔ l ∈ ls := fun l => hperm.mem_iff
    exact ⟨fault_eq_none_congr h (hlines hsame) hsame, eq_of_perm h (hlines hsame) hperm⟩
  · have hiff : (measured ms).fault = none ↔ (measured ls).fault = none :=
      fault_eq_none_congr h (hlines hsame) hsame
    refine ⟨hiff, fun hfault => elements_congr h (hlines hsame) ?_⟩
    have hsound := (run_ofLines format mode h).1.mp hfault
    have hsound' := (run_ofLines format mode (hlines hsame)).1.mp (hiff.mpr hfault)
    rwa [List.takeWhile_eq_self_iff.mpr hsound, List.takeWhile_eq_self_iff.mpr hsound']
  · rintro rs rfl
    have hsame : ∀ l, l ∈ Line.repeated rs ↔ l ∈ rs.map Prod.fst := fun l => Line.mem_repeated
    exact ⟨fault_eq_none_congr h (hlines hsame) hsame,
      elements_congr h (hlines hsame) fun l => Line.mem_takeWhile_repeated⟩

/-- Two accesses that share a page and an empty request, reversed and with copies. -/
theorem order_and_copies_unseen_of_shared_page :
    let first := "5 1 p 0 9 R".toUTF8.toList
    let second := "6 1 p 8 8 W\r".toUTF8.toList
    let third := "7 1 p 3 0 R".toUTF8.toList
    let ls := [first, second, third]
    let rs := [(first, 2), (second, 0), (third, 1)]
    (∀ l ∈ ls, 10 ∉ l) ∧ [third, second, first].Perm ls ∧ rs.map Prod.fst = ls ∧
      (run .fiu .exact none (.ofLines ls)).fault = none ∧
      (run .fiu .exact none (.ofLines [third, second, first])).totals.touched = 3 ∧
      (run .fiu .exact none (.ofLines [third, second, first])).stats =
        { lines := 3, empty := 1, closed := false } ∧
      (run .fiu .exact none (.ofLines (Line.repeated rs))).fault = none ∧
      (run .fiu .exact none (.ofLines (Line.repeated rs))).tally.touched = 7 ∧
      (run .fiu .exact none (.ofLines (Line.repeated rs))).tally.seen.elements =
        (run .fiu .exact none (.ofLines ls)).tally.seen.elements := by
  intro first second third ls rs
  have hfeed : ∀ l ∈ ls, 10 ∉ l := by decide +kernel
  have hperm : [third, second, first].Perm ls := List.reverse_perm ls
  have hfault : (run .fiu .exact none (.ofLines ls)).fault = none := by decide +kernel
  obtain ⟨horder, _, hcopies⟩ := order_and_copies_unseen .fiu .exact hfeed
  obtain ⟨htotals, hstats, _⟩ := (horder _ hperm).2 hfault
  obtain ⟨hsuccess, helements⟩ := hcopies rs rfl
  refine ⟨hfeed, hperm, rfl, hfault, ?_, ?_, hsuccess.mpr hfault, ?_, helements⟩
  · rw [htotals]
    decide +kernel
  · rw [hstats]
    decide +kernel
  · decide +kernel

end Measurement

end Footprint

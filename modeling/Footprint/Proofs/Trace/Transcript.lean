import Footprint.Proofs.Trace.Lines
import Footprint.Proofs.Trace.Verdicts
import Mathlib.Data.List.TakeWhile

/-!
# Readings follow the verdicts on their lines

Between two lines a reading stands where the verdicts on the lines before say: its
counters count them, and its window is anchored by the first access among them. One
line moves it on accordingly or ends it. So what a reading gives, however often it
is asked, is decided by the first line that is faulty or stamped after the deadline.
-/

namespace Footprint

namespace Progress

/-- Where a reading stands after lines that did not end it. -/
def past (format : Format) (hours : Option UInt64)
    (before : List (Except ReadingFault Entry)) : Progress :=
  { window := hours.map fun h =>
      { length := (Window.ofHours format h).length
        last := (Line.anchor before).map (Word.addCapped · (Window.ofHours format h).length) }
    stats :=
      { lines := before.length
        empty := before.countP Line.isEmpty
        closed := false } }

/-- A reading starts before its first line. -/
theorem start_eq_past (format : Format) (hours : Option UInt64) :
    start (hours.map (Window.ofHours format)) = past format hours [] := by
  cases hours <;> rfl

/-- The counters when a reading is over, whether a line or the end of the trace ended it. -/
def finalStats (last : Option Nat) (before : List (Except ReadingFault Entry))
    (stop : Option (Except ReadingFault Entry)) : Stats :=
  { lines := before.length + if stop.any Line.counts then 1 else 0
    empty := before.countP Line.isEmpty
    closed := stop.any (Line.isLate last) }

variable {format : Format} {hours : Option UInt64} {before : List (Except ReadingFault Entry)}
  {line : Except Content.Fault String} {v : Except ReadingFault Entry}

/-- The next line is read with the next number, and its timestamp exactly under a limit. -/
theorem parse_past (text : String) :
    Entry.parse format.layout (past format hours before).count.stats.lines text
        (past format hours before).count.window.isSome =
      Entry.parse format.layout (before.length + 1) text hours.isSome := by
  cases hours <;> rfl

/-- An empty request is counted, and the window does not see it. -/
theorem take_past_of_isEmpty
    (h : Line.verdict format hours.isSome (before.length + 1) line = v)
    (he : Line.isEmpty v = true) :
    (past format hours before).take format line =
      (.pass, past format hours (before ++ [v])) := by
  obtain ⟨e, _, rfl⟩ | ⟨text, e, _, _, rfl⟩ | ⟨text, ⟨access, stamp⟩, rfl, hparse, rfl, _⟩ :=
    Line.verdict_cases h
  · exact nomatch he
  · exact nomatch he
  · cases access with
    | some a => exact nomatch he
    | none =>
      simp only [take, parse_past, hparse]
      simp only [past, count, countEmpty, Line.anchor_concat (v := .ok ⟨none, stamp⟩) rfl,
        List.length_append, List.length_singleton, List.countP_append, List.countP_singleton, he,
        if_true]

/-- The window decides about an access as the exact deadline does. -/
theorem show_past {a : Access} {stamp : Option UInt64} (h : stamp.isSome = hours.isSome)
    (after : List (Except ReadingFault Entry)) :
    (past format hours before).count.show? a stamp =
      if Line.isLate (Line.deadline format hours (before ++ .ok ⟨some a, stamp⟩ :: after))
          (.ok ⟨some a, stamp⟩) = true
      then (.close, (past format hours (before ++ [.ok ⟨some a, stamp⟩])).close)
      else (.give a, past format hours (before ++ [.ok ⟨some a, stamp⟩])) := by
  have hempty : Line.isEmpty (.ok ⟨some a, stamp⟩) = false := rfl
  cases hours with
  | none =>
    have hstamp : stamp = none := Option.isNone_iff_eq_none.mp (by simpa using h)
    subst hstamp
    rw [Line.isLate_of_stamp?_eq_none rfl, if_neg Bool.false_ne_true]
    simp only [show?, past, count, Option.map_none, List.length_append, List.length_singleton,
      List.countP_append, List.countP_singleton, hempty, Bool.false_eq_true, if_false,
      Nat.add_zero]
  | some hours =>
    obtain ⟨stamp, rfl⟩ := Option.isSome_iff_exists.mp h
    have hanchor := Line.anchor_append_cons (v := .ok ⟨some a, some stamp⟩) rfl before
    have hlast : Option.getD
        ((Line.anchor before).map (Word.addCapped · (Window.ofHours format hours).length))
        (Word.addCapped stamp (Window.ofHours format hours).length) =
        Word.addCapped ((Line.anchor before).getD stamp) (Window.ofHours format hours).length := by
      cases Line.anchor before <;> rfl
    have hlate : Line.isLate
        (Line.deadline format (some hours) (before ++ .ok ⟨some a, some stamp⟩ :: after))
        (.ok ⟨some a, some stamp⟩) = true ↔
        ¬ stamp ≤ Word.addCapped ((Line.anchor before).getD stamp)
          (Window.ofHours format hours).length := by
      rw [Window.le_last_iff, Nat.not_le, Line.deadline, hanchor]
      exact decide_eq_true_iff
    simp only [show?, past, count, Option.map_some, Window.accept, Window.lastFor, hlast,
      hanchor, hlate, List.length_append, List.length_singleton, List.countP_append,
      List.countP_singleton, hempty, Bool.false_eq_true, if_false, Nat.add_zero, close,
      decide_eq_true_eq, ite_not]

/-- An access up to the deadline is given. -/
theorem take_past_of_access
    (h : Line.verdict format hours.isSome (before.length + 1) line = v) {a : Access}
    (ha : Line.access? v = some a) (after : List (Except ReadingFault Entry))
    (hl : Line.isLate (Line.deadline format hours (before ++ v :: after)) v = false) :
    (past format hours before).take format line =
      (.give a, past format hours (before ++ [v])) := by
  obtain ⟨e, _, rfl⟩ | ⟨text, e, _, _, rfl⟩ | ⟨text, ⟨access, stamp⟩, rfl, hparse, rfl, hstamp⟩ :=
    Line.verdict_cases h
  · exact nomatch ha
  · exact nomatch ha
  · obtain rfl : access = some a := ha
    simp only [take, parse_past, hparse, show_past hstamp after, hl, Bool.false_eq_true, if_false]

/-- A reading that ends on an access has counted it, and is closed if the access is late. -/
theorem finalStats_of_access (format : Format) (hours : Option UInt64) (last : Option Nat)
    (before : List (Except ReadingFault Entry)) (a : Access) (stamp : Option UInt64) :
    finalStats last before (some (.ok ⟨some a, stamp⟩)) =
      { (past format hours (before ++ [.ok ⟨some a, stamp⟩])).stats with
        closed := Line.isLate last (.ok ⟨some a, stamp⟩) } := by
  simp only [finalStats, past, Option.any_some, List.length_append, List.length_singleton,
    List.countP_append, List.countP_singleton]
  rfl

/-- A fault or a late access ends the reading with the counters of the lines so far. -/
theorem take_past_of_ends
    (h : Line.verdict format hours.isSome (before.length + 1) line = v)
    (after : List (Except ReadingFault Entry)) {last : Option Nat}
    (hlast : Line.deadline format hours (before ++ v :: after) = last)
    (he : Line.ends last v = true) :
    ∃ p, (past format hours before).take format line =
        ((Line.fault? v).elim .close .fail, p) ∧
      p.stats = finalStats last before (some v) := by
  subst hlast
  obtain ⟨e, rfl, rfl⟩ | ⟨text, e, rfl, hparse, rfl⟩ |
    ⟨text, ⟨access, stamp⟩, rfl, hparse, rfl, hstamp⟩ := Line.verdict_cases h
  · refine ⟨_, rfl, ?_⟩
    rw [finalStats, Option.any_some, Option.any_some, Line.isLate_of_stamp?_eq_none rfl]
    rfl
  · refine ⟨(past format hours before).count, by simp only [take, parse_past, hparse]; rfl, ?_⟩
    rw [finalStats, Option.any_some, Option.any_some, Line.isLate_of_stamp?_eq_none rfl]
    rfl
  · have hlate : Line.isLate (Line.deadline format hours (before ++ .ok ⟨access, stamp⟩ :: after))
        (.ok ⟨access, stamp⟩) = true := by
      simpa only [Line.ends, Line.fault?, Option.isSome_none, Bool.false_or] using he
    cases access with
    | none =>
      rw [Line.isLate_of_stamp?_eq_none rfl] at hlate
      cases hlate
    | some a =>
      refine ⟨(past format hours (before ++ [.ok ⟨some a, stamp⟩])).close,
        by simp only [take, parse_past, hparse, show_past hstamp after, hlate, if_true]; rfl, ?_⟩
      rw [finalStats_of_access format hours, hlate]
      rfl

end Progress

namespace Reading

/-- The reading after it has been asked so often to go on. -/
def after (r : Reading) : Nat → Reading
  | 0 => r
  | n + 1 => r.next.2.after n

/-- A reading with nothing pending does not change any more. -/
theorem after_of_pending_eq_nil {r : Reading} (h : r.pending = []) (n : Nat) : r.after n = r := by
  induction n with
  | zero => rfl
  | succ n ih => rw [after, next_of_pending_eq_nil h, ih]

/-- Readings that go on in the same way stay together. -/
theorem after_succ_congr {r s : Reading} (h : r.next = s.next) (n : Nat) :
    r.after (n + 1) = s.after (n + 1) := by
  rw [after, after, h]

/-- All accesses that a reading gives, one after another, before it gives something else. -/
def accesses (r : Reading) : List Access :=
  match h : r.next with
  | (.access a, s) =>
    have : s.pending.length < r.pending.length := length_pending_next_lt h
    a :: s.accesses
  | _ => []
termination_by r.pending.length

/-- The access given next comes before those of the reading after it. -/
theorem accesses_of_access {r s : Reading} {a : Access} (h : r.next = (.access a, s)) :
    r.accesses = a :: s.accesses := by
  rw [accesses]
  split
  · rename_i he
    cases h.symm.trans he
    rfl
  · rename_i hne
    exact absurd h (hne _ _)

/-- A reading that gives something else next gives no access. -/
theorem accesses_of_forall_ne {r : Reading} (h : ∀ a, r.next.1 ≠ .access a) :
    r.accesses = [] := by
  rw [accesses]
  split
  · rename_i a _ he
    exact absurd (congrArg Prod.fst he) (h a)
  · rfl

/-- What a reading gives when it is asked again and again begins with its accesses. -/
theorem accesses_eq_of_steps {r : Reading} {as : List Access} {ending : List Step}
    (hending : ∀ a, ending.head? ≠ some (.access a))
    (h : ∀ n, (r.after n).next.1 = (as.map Step.access ++ ending)[n]?.getD .finished) :
    r.accesses = as := by
  induction as generalizing r with
  | nil =>
    have hfirst : r.next.1 = ending.head?.getD .finished := by
      rw [List.head?_eq_getElem?]
      exact h 0
    apply accesses_of_forall_ne
    intro a ha
    rw [hfirst] at ha
    cases he : ending.head? with
    | none =>
      rw [he] at ha
      exact nomatch ha
    | some step =>
      rw [he] at ha
      exact hending a (he.trans (congrArg some ha))
  | cons a as ih =>
    have hfirst : r.next.1 = .access a := h 0
    rw [accesses_of_access (Prod.ext hfirst rfl : r.next = (.access a, r.next.2)),
      ih fun n => h (n + 1)]

/-- A reading that has passed some lines and has others still to read. -/
def past (format : Format) (hours : Option UInt64) (before : List (Except ReadingFault Entry))
    (lines : List (Except Content.Fault String)) : Reading :=
  ⟨format, .past format hours before, lines⟩

/-- A reading starts before the first of its lines. -/
theorem start_eq_past (format : Format) (hours : Option UInt64) (content : Content) :
    start format hours content = past format hours [] content.lines := by
  rw [start, Progress.start_eq_past]
  rfl

section Step

variable {format : Format} {hours : Option UInt64} {before : List (Except ReadingFault Entry)}
  {line : Except Content.Fault String} {v : Except ReadingFault Entry}

/-- An empty request is passed over. -/
theorem next_past_of_isEmpty
    (h : Line.verdict format hours.isSome (before.length + 1) line = v)
    (he : Line.isEmpty v = true) (rest : List (Except Content.Fault String)) :
    (past format hours before (line :: rest)).next =
      (past format hours (before ++ [v]) rest).next := by
  rw [next_of_pending_eq_cons rfl]
  simp only [past, Progress.take_past_of_isEmpty h he]

/-- An access up to the deadline is given. -/
theorem next_past_of_access
    (h : Line.verdict format hours.isSome (before.length + 1) line = v) {a : Access}
    (ha : Line.access? v = some a) {after : List (Except ReadingFault Entry)}
    (hl : Line.isLate (Line.deadline format hours (before ++ v :: after)) v = false)
    (rest : List (Except Content.Fault String)) :
    (past format hours before (line :: rest)).next =
      (.access a, past format hours (before ++ [v]) rest) := by
  rw [next_of_pending_eq_cons rfl]
  simp only [past, Progress.take_past_of_access h ha after hl]

/-- A fault is given and a late access is not, and nothing is pending after them. -/
theorem next_past_of_ends
    (h : Line.verdict format hours.isSome (before.length + 1) line = v)
    {after : List (Except ReadingFault Entry)} {last : Option Nat}
    (hlast : Line.deadline format hours (before ++ v :: after) = last)
    (he : Line.ends last v = true) (rest : List (Except Content.Fault String)) :
    ∃ r : Reading, (past format hours before (line :: rest)).next =
        ((Line.fault? v).elim .finished .fault, r) ∧
      r.pending = [] ∧ r.stats = Progress.finalStats last before (some v) := by
  obtain ⟨p, htake, hp⟩ := Progress.take_past_of_ends h after hlast he
  refine ⟨⟨format, p, []⟩, ?_, rfl, hp⟩
  rw [next_of_pending_eq_cons rfl]
  simp only [past, htake]
  cases Line.fault? v <;> rfl

end Step

/-- Asked again and again, a reading gives the steps of its lines and then nothing more; once
it has given nothing or a fault, its counters are final. -/
theorem next_after_past {format : Format} {hours : Option UInt64} {last : Option Nat}
    {before vs : List (Except ReadingFault Entry)} {lines : List (Except Content.Fault String)}
    (hvs : Line.verdictsFrom format hours.isSome (before.length + 1) lines = vs)
    (hlast : Line.deadline format hours (before ++ vs) = last) :
    (∀ n, ((past format hours before lines).after n).next.1 =
        (Line.steps last vs)[n]?.getD .finished) ∧
      ∀ n, (Line.given last vs).length < n →
        ((past format hours before lines).after n).stats =
          Progress.finalStats last (before ++ vs.takeWhile fun v => !Line.ends last v)
            (vs.find? (Line.ends last)) := by
  induction lines generalizing before vs with
  | nil =>
    subst hvs
    have hr := after_of_pending_eq_nil (r := past format hours before []) rfl
    constructor
    · intro n
      rw [hr n]
      rfl
    · intro n _
      rw [hr n, Line.verdictsFrom, List.takeWhile_nil, List.append_nil]
      rfl
  | cons line rest ih =>
    rw [Line.verdictsFrom] at hvs
    generalize hv : Line.verdict format hours.isSome (before.length + 1) line = v at hvs
    subst hvs
    have hlength : (before ++ [v]).length + 1 = before.length + 1 + 1 := by
      rw [List.length_append, List.length_singleton]
    obtain ⟨hnext, hstats⟩ := ih (congrArg (Line.verdictsFrom format hours.isSome · rest) hlength)
      (by rw [← List.append_cons, hlast])
    obtain ⟨hempty, hgo, hnone⟩ | hend | ⟨a, ha, hl, hgo, _⟩ := Line.kinds last v
    · -- the reading goes on like the one after the line
      have hstep := next_past_of_isEmpty hv hempty rest
      rw [Line.steps_cons_of_none hgo hnone, Line.given_cons_of_none hgo hnone,
        Line.find?_cons_of_eq_false hgo, Line.takeWhile_not_cons_of_neg hgo, List.append_cons]
      constructor
      · intro n
        rw [← hnext n]
        cases n with
        | zero => exact congrArg Prod.fst hstep
        | succ n => rw [after_succ_congr hstep]
      · intro n hn
        rw [← hstats n hn]
        cases n with
        | zero => exact absurd hn (Nat.not_lt_zero _)
        | succ n => rw [after_succ_congr hstep]
    · -- the line is the last one read
      obtain ⟨r, hstep, hr, hfinal⟩ := next_past_of_ends hv hlast hend rest
      rw [Line.steps_cons_of_ends hend, Line.given_cons_of_ends hend,
        Line.takeWhile_not_cons_of_pos hend, List.append_nil, List.find?_cons_of_pos hend]
      constructor
      · intro n
        cases n with
        | zero =>
          rw [after, hstep]
          cases Line.fault? v <;> rfl
        | succ n =>
          rw [after, hstep, after_of_pending_eq_nil hr, next_of_pending_eq_nil hr]
          cases Line.fault? v <;> rfl
      · intro n hn
        cases n with
        | zero => exact absurd hn (Nat.not_lt_zero _)
        | succ n => rw [after, hstep, after_of_pending_eq_nil hr, hfinal]
    · -- the access is given first, then the reading goes on
      have hstep := next_past_of_access hv ha (by rw [hlast, hl]) rest
      rw [Line.steps_cons_of_some hgo ha, Line.given_cons_of_some hgo ha,
        Line.find?_cons_of_eq_false hgo, Line.takeWhile_not_cons_of_neg hgo, List.append_cons]
      constructor
      · intro n
        cases n with
        | zero =>
          rw [after, hstep]
          rfl
        | succ n =>
          rw [after, hstep, hnext n]
          rfl
      · intro n hn
        cases n with
        | zero => exact absurd hn (Nat.not_lt_zero _)
        | succ n => rw [after, hstep, hstats n (Nat.lt_of_succ_lt_succ hn)]

/-- From the first line on, a reading gives the steps of its lines and then nothing more, and
its counters are final once it has given all accesses and been asked again. -/
theorem next_after_start (format : Format) (hours : Option UInt64) (content : Content) :
    let vs := Line.verdicts format hours.isSome content.lines
    let last := Line.deadline format hours vs
    (∀ n, ((start format hours content).after n).next.1 =
        (Line.steps last vs)[n]?.getD .finished) ∧
      ∀ n, (Line.given last vs).length < n →
        ((start format hours content).after n).stats =
          Progress.finalStats last (vs.takeWhile fun v => !Line.ends last v)
            (vs.find? (Line.ends last)) := by
  rw [start_eq_past]
  exact @next_after_past format hours _ [] _ content.lines rfl rfl

/-- Without a limit, and if every line is understood, a reading gives the accesses on all lines
and then nothing more; it has counted all lines, and those without an access as empty. -/
theorem next_after_start_of_entries {format : Format} {content : Content} {es : List Entry}
    (h : Line.verdicts format false content.lines = es.map .ok) :
    let given := es.filterMap Entry.access
    (∀ n, ((start format none content).after n).next.1 =
        (given.map Step.access)[n]?.getD .finished) ∧
      ∀ n, given.length < n →
        ((start format none content).after n).stats =
          { lines := es.length, empty := es.countP (·.access.isNone), closed := false } := by
  intro given
  obtain ⟨hnext, hstats⟩ := next_after_start format none content
  have hlast : Line.deadline format none (es.map .ok) = none := rfl
  have hpass : (es.map .ok).takeWhile (fun v => !Line.ends none v) = es.map .ok := by
    rw [List.takeWhile_eq_self_iff, List.forall_mem_map]
    intro e _
    rw [Line.ends_none_ok]
    rfl
  have hstop : (es.map .ok).find? (Line.ends none) = none := by
    rw [List.find?_eq_none, List.forall_mem_map]
    intro e _
    rw [Line.ends_none_ok]
    exact Bool.false_ne_true
  have hgiven : Line.given none (es.map .ok) = given := by
    rw [Line.given, hpass, List.filterMap_map]
    rfl
  rw [Option.isSome_none, h, hlast] at hnext hstats
  constructor
  · intro n
    rw [hnext n, Line.steps, hgiven, hstop, Option.bind_none, Option.toList_none, List.map_nil,
      List.append_nil]
  · intro n hn
    rw [hstats n (by rwa [hgiven]), hpass, hstop, Progress.finalStats, List.length_map,
      List.countP_map]
    simp only [Function.comp_def, Line.isEmpty_ok]
    rfl

/-- The accesses of a reading are those on its lines before the end. -/
theorem accesses_start (format : Format) (hours : Option UInt64) (content : Content) :
    (start format hours content).accesses =
      Line.given (Line.deadline format hours (Line.verdicts format hours.isSome content.lines))
        (Line.verdicts format hours.isSome content.lines) := by
  refine accesses_eq_of_steps (fun a => ?_) (next_after_start format hours content).1
  rw [List.head?_map]
  cases (Option.bind _ Line.fault?) with
  | none => exact nofun
  | some e => exact nofun

/-- The reading of a text is decided by its first line that is faulty or stamped after the exact
deadline. It gives the accesses before that line in order, then its fault if it has one, and then
nothing more; the counters are those of the lines read. Under a limit only accesses stamped up to
the deadline are given. Empty requests never end the reading and do not move the deadline. -/
theorem next_of_text (format : Format) (hours : Option UInt64) (text : String) :
    let vs := Line.verdicts format hours.isSome ((Text.lines text).map .ok)
    let last := Line.deadline format hours vs
    let before := vs.takeWhile fun v => !Line.ends last v
    let stop := vs.find? (Line.ends last)
    let given := before.filterMap Line.access?
    let r := start format hours (.ofText text)
    (∀ n, (r.after n).next.1 =
        (given.map Step.access ++ (stop.bind Line.fault?).toList.map .fault)[n]?.getD .finished) ∧
      (∀ n, given.length < n → (r.after n).stats =
        { lines := before.length + if stop.isSome then 1 else 0
          empty := before.countP Line.isEmpty
          closed := stop.any (Line.isLate last) }) ∧
      (∀ h, hours = some h → ∀ v ∈ before, ∀ a, Line.access? v = some a →
        ∃ stamp first, Line.stamp? v = some stamp ∧ Line.anchor vs = some first ∧
          stamp.toNat ≤ first.toNat + h.toNat * format.hourTicks.toNat) ∧
      (∀ v ∈ vs, Line.isEmpty v = true → Line.ends last v = false) ∧
      Line.deadline format hours (vs.filter fun v => !Line.isEmpty v) = last := by
  intro vs last before stop given r
  have hr : start format hours (.ofText text) =
      past format hours [] ((Text.lines text).map .ok) := by
    rw [start_eq_past, Content.lines_ofText]
  obtain ⟨hnext, hstats⟩ :=
    @next_after_past format hours last [] vs ((Text.lines text).map .ok) rfl rfl
  rw [← hr] at hnext hstats
  refine ⟨hnext, ?_, ?_, ?_, Line.deadline_filter_not_isEmpty format hours vs⟩
  · intro n hn
    have hcounts : stop.any Line.counts = stop.isSome := by
      cases hstop : stop with
      | none => rfl
      | some v =>
        exact Line.counts_of_mem_verdictsFrom (List.mem_of_find?_eq_some hstop)
    rw [hstats n hn, Progress.finalStats, hcounts, List.nil_append]
  · intro h hh v hv a ha
    have hmem : v ∈ vs := (List.takeWhile_sublist _).subset hv
    have hgo : Line.ends last v = false := by
      have hall := List.mem_takeWhile_imp hv
      simpa only [Bool.not_eq_true'] using hall
    obtain ⟨stamp, hs⟩ := Line.exists_stamp?_of_access? hmem (by rw [hh]; rfl) ha
    have hlast : last = Line.deadline format (some h) vs := by rw [← hh]
    rw [hlast] at hgo
    obtain ⟨first, hfirst, hle⟩ := Line.le_exactLast_of_not_ends hmem hs hgo
    exact ⟨stamp, first, hs, hfirst, hle⟩
  · intro v _ he
    exact Line.ends_of_isEmpty he last

end Reading

end Footprint

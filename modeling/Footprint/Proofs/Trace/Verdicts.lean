import Footprint.Trace.Reading

/-!
# What the lines of a trace say by themselves

Every line has a verdict that depends on the line and its number only: an access
with its timestamp, an empty request, or a fault. What a reading does with a line
depends on the lines before it in one way: the first non-empty request anchors the
time window. The deadline it sets is a natural number without any limit, and
capping the length and the end of a window never moves a timestamp across it.
-/

namespace Footprint

/-- The last admitted timestamp of so many hours, in exact arithmetic. -/
def Window.exactLast (format : Format) (hours anchor : UInt64) : Nat :=
  anchor.toNat + hours.toNat * format.hourTicks.toNat

/-- The last timestamp of a window is the exact one, or the greatest word. -/
theorem Window.toNat_last (format : Format) (hours anchor : UInt64) :
    (Word.addCapped anchor (ofHours format hours).length).toNat =
      min (exactLast format hours anchor) (UInt64.size - 1) := by
  have hproduct := Nat.mul_comm format.hourTicks.toNat hours.toNat
  simp only [Word.addCapped, ofHours, Word.mulCapped, Word.toNat_capped, exactLast, hproduct]
  omega

/-- Capping moves no timestamp across the end of a window. -/
theorem Window.le_last_iff {format : Format} {hours anchor stamp : UInt64} :
    stamp ≤ Word.addCapped anchor (ofHours format hours).length ↔
      stamp.toNat ≤ exactLast format hours anchor := by
  have hlt := stamp.toNat_lt_size
  rw [UInt64.le_iff_toNat_le, toNat_last]
  omega

namespace Entry

private theorem bind_eq_ok {ε α β : Type} {x : Except ε α} {f : α → Except ε β} {b : β}
    (h : x >>= f = .ok b) : ∃ a, x = .ok a ∧ f a = .ok b := by
  cases x with
  | error e => exact nomatch h
  | ok a => exact ⟨a, rfl, h⟩

private theorem isSome_of_mapM {ε α β : Type} {f : α → Except ε β} {raw : Option α}
    {result : Option β} (h : raw.mapM f = .ok result) : result.isSome = raw.isSome := by
  cases raw with
  | none =>
    cases h
    rfl
  | some a =>
    rw [Option.mapM_some] at h
    cases hf : f a with
    | error e =>
      rw [hf] at h
      exact nomatch h
    | ok b =>
      rw [hf] at h
      cases h
      rfl

/-- An entry has a timestamp exactly if it was asked for: every line has a first field. -/
theorem isSome_timestamp {format : Format} {number : Nat} {text : String} {timed : Bool}
    {e : Entry} (h : parse format.layout number text timed = .ok e) :
    e.timestamp.isSome = timed := by
  have hfirst : ∃ raw, (Text.fields format.layout.delimiter text.toList)[format.layout.timestamp]?
      = some raw := by
    have hzero : format.layout.timestamp = 0 := by cases format <;> rfl
    rw [hzero, Text.fields]
    exact ⟨_, rfl⟩
  obtain ⟨raw, hraw⟩ := hfirst
  unfold parse at h
  dsimp only at h
  split at h
  · obtain ⟨start, _, h⟩ := bind_eq_ok h
    obtain ⟨length, _, h⟩ := bind_eq_ok h
    obtain ⟨stamp, hstamp, h⟩ := bind_eq_ok h
    cases h
    rw [isSome_of_mapM hstamp, hraw]
    cases timed <;> rfl
  · cases h

/-- An entry that is read with its timestamp is read without it too, and says the rest. -/
theorem parse_untimed {layout : Layout} {number : Nat} {text : String} {timed : Bool} {e : Entry}
    (h : parse layout number text timed = .ok e) :
    parse layout number text false = .ok { e with timestamp := none } := by
  unfold parse at h ⊢
  dsimp only at h ⊢
  split at h
  · obtain ⟨start, hstart, h⟩ := bind_eq_ok h
    obtain ⟨length, hlength, h⟩ := bind_eq_ok h
    obtain ⟨stamp, _, h⟩ := bind_eq_ok h
    cases h
    rw [hstart, hlength]
    rfl
  · cases h

end Entry

namespace Line

/-- What a line says by itself, or why it is refused. -/
def verdict (format : Format) (timed : Bool) (number : Nat) :
    Except Content.Fault String → Except ReadingFault Entry
  | .error e => .error (.content e)
  | .ok text => (Entry.parse format.layout number text timed).mapError .entry

/-- The verdicts on successive lines, the first of which has the given number. -/
def verdictsFrom (format : Format) (timed : Bool) (number : Nat) :
    List (Except Content.Fault String) → List (Except ReadingFault Entry)
  | [] => []
  | line :: rest =>
    verdict format timed number line :: verdictsFrom format timed (number + 1) rest

/-- The verdicts on all lines of a trace, which are numbered from one. -/
def verdicts (format : Format) (timed : Bool) (lines : List (Except Content.Fault String)) :
    List (Except ReadingFault Entry) :=
  verdictsFrom format timed 1 lines

/-- The access on a line. -/
def access? : Except ReadingFault Entry → Option Access
  | .ok e => e.access
  | .error _ => none

/-- The timestamp of the access on a line. -/
def stamp? : Except ReadingFault Entry → Option UInt64
  | .ok ⟨some _, stamp⟩ => stamp
  | _ => none

/-- The fault of a line. -/
def fault? : Except ReadingFault Entry → Option ReadingFault
  | .ok _ => none
  | .error e => some e

/-- The line is a request of length zero. -/
def isEmpty : Except ReadingFault Entry → Bool
  | .ok ⟨none, _⟩ => true
  | _ => false

/-- The first timestamp of an access. -/
def anchor (vs : List (Except ReadingFault Entry)) : Option UInt64 :=
  vs.findSome? stamp?

/-- The last admitted timestamp, if the reading is limited and some access anchors it. -/
def deadline (format : Format) (hours : Option UInt64) (vs : List (Except ReadingFault Entry)) :
    Option Nat :=
  hours.bind fun h => (anchor vs).map (Window.exactLast format h)

/-- The access on a line is stamped after the deadline. -/
def isLate (last : Option Nat) (v : Except ReadingFault Entry) : Bool :=
  last.any fun last => (stamp? v).any fun stamp => decide (last < stamp.toNat)

/-- The line is the end of the reading. -/
def ends (last : Option Nat) (v : Except ReadingFault Entry) : Bool :=
  (fault? v).isSome || isLate last v

/-- The accesses on the lines before the end. -/
def given (last : Option Nat) (vs : List (Except ReadingFault Entry)) : List Access :=
  (vs.takeWhile fun v => !ends last v).filterMap access?

/-- What a reading of the lines gives before nothing more comes: the accesses, then the fault. -/
def steps (last : Option Nat) (vs : List (Except ReadingFault Entry)) : List Step :=
  (given last vs).map .access ++ ((vs.find? (ends last)).bind fault?).toList.map .fault

/-- A line counts as read unless its bytes could not be read. -/
def counts : Except ReadingFault Entry → Bool
  | .error (.content _) => false
  | _ => true

/-- Whether a line is timed, empty, stamped or faulty, its verdict is of one of three kinds. -/
theorem verdict_cases {format : Format} {timed : Bool} {number : Nat}
    {line : Except Content.Fault String} {v : Except ReadingFault Entry}
    (h : verdict format timed number line = v) :
    (∃ e, line = .error e ∧ v = .error (.content e)) ∨
      (∃ text e, line = .ok text ∧ Entry.parse format.layout number text timed = .error e ∧
        v = .error (.entry e)) ∨
      ∃ text e, line = .ok text ∧ Entry.parse format.layout number text timed = .ok e ∧
        v = .ok e ∧ e.timestamp.isSome = timed := by
  subst h
  cases line with
  | error e => exact Or.inl ⟨e, rfl, rfl⟩
  | ok text =>
    cases he : Entry.parse format.layout number text timed with
    | error e => exact Or.inr (Or.inl ⟨text, e, rfl, he, by rw [verdict, he]; rfl⟩)
    | ok e =>
      exact Or.inr (Or.inr ⟨text, e, rfl, he, by rw [verdict, he]; rfl,
        Entry.isSome_timestamp he⟩)

/-- Every line has one verdict. -/
@[simp] theorem length_verdictsFrom (format : Format) (timed : Bool) (number : Nat)
    (lines : List (Except Content.Fault String)) :
    (verdictsFrom format timed number lines).length = lines.length := by
  induction lines generalizing number with
  | nil => rfl
  | cons line rest ih => rw [verdictsFrom, List.length_cons, ih, List.length_cons]

/-- Lines after others have the numbers after theirs. -/
theorem verdictsFrom_append (format : Format) (timed : Bool) (number : Nat)
    (lines more : List (Except Content.Fault String)) :
    verdictsFrom format timed number (lines ++ more) =
      verdictsFrom format timed number lines ++
        verdictsFrom format timed (number + lines.length) more := by
  induction lines generalizing number with
  | nil => rfl
  | cons line rest ih =>
    rw [List.cons_append, verdictsFrom, verdictsFrom, ih, List.length_cons, List.cons_append,
      Nat.add_assoc, Nat.add_comm 1]

/-- Every verdict is that of a line under some number. -/
theorem exists_line_of_mem_verdictsFrom {format : Format} {timed : Bool}
    {v : Except ReadingFault Entry} {lines : List (Except Content.Fault String)} {number : Nat}
    (h : v ∈ verdictsFrom format timed number lines) :
    ∃ line ∈ lines, ∃ n, verdict format timed n line = v := by
  induction lines generalizing number with
  | nil => exact absurd h List.not_mem_nil
  | cons line rest ih =>
    rcases List.mem_cons.mp h with rfl | h
    · exact ⟨line, List.mem_cons_self, number, rfl⟩
    · obtain ⟨line', hmem, hn⟩ := ih h
      exact ⟨line', List.mem_cons_of_mem _ hmem, hn⟩

/-- Under a limit every access has a timestamp. -/
theorem exists_stamp?_of_access? {format : Format} {timed : Bool}
    {v : Except ReadingFault Entry} {lines : List (Except Content.Fault String)} {number : Nat}
    (h : v ∈ verdictsFrom format timed number lines) (htimed : timed = true) {a : Access}
    (ha : access? v = some a) : ∃ stamp, stamp? v = some stamp := by
  obtain ⟨line, _, n, hv⟩ := exists_line_of_mem_verdictsFrom h
  obtain ⟨e, _, rfl⟩ | ⟨text, e, _, _, rfl⟩ | ⟨text, ⟨access, stamp⟩, _, _, rfl, hstamp⟩ :=
    verdict_cases hv
  · exact nomatch ha
  · exact nomatch ha
  · obtain rfl : access = some a := ha
    exact Option.isSome_iff_exists.mp (hstamp.trans htimed)

/-- The lines of a text all count as read. -/
theorem counts_of_mem_verdictsFrom {format : Format} {timed : Bool}
    {v : Except ReadingFault Entry} {texts : List String} {number : Nat}
    (h : v ∈ verdictsFrom format timed number (texts.map .ok)) : counts v = true := by
  obtain ⟨line, hline, n, hv⟩ := exists_line_of_mem_verdictsFrom h
  obtain ⟨text, _, rfl⟩ := List.mem_map.mp hline
  obtain ⟨e, he, _⟩ | ⟨_, e, _, _, rfl⟩ | ⟨_, e, _, _, rfl, _⟩ := verdict_cases hv
  · exact nomatch he
  · rfl
  · rfl

/-- An access before the end of a limited reading is stamped up to the exact deadline. -/
theorem le_exactLast_of_not_ends {format : Format} {hours : UInt64}
    {vs : List (Except ReadingFault Entry)} {v : Except ReadingFault Entry} (hmem : v ∈ vs)
    {stamp : UInt64} (hs : stamp? v = some stamp)
    (h : ends (deadline format (some hours) vs) v = false) :
    ∃ first, anchor vs = some first ∧ stamp.toNat ≤ Window.exactLast format hours first := by
  have hsome : (anchor vs).isSome := by
    rw [anchor, List.findSome?_isSome_iff]
    exact ⟨v, hmem, by rw [hs]; rfl⟩
  obtain ⟨first, hfirst⟩ := Option.isSome_iff_exists.mp hsome
  refine ⟨first, hfirst, Nat.le_of_not_lt ?_⟩
  simp only [ends, Bool.or_eq_false_iff, isLate, deadline, hfirst, hs, Option.bind_some,
    Option.map_some, Option.any_some, decide_eq_false_iff_not] at h
  exact h.2

/-- Empty requests neither end a reading nor move its deadline. -/
theorem deadline_filter_not_isEmpty (format : Format) (hours : Option UInt64)
    (vs : List (Except ReadingFault Entry)) :
    deadline format hours (vs.filter fun v => !isEmpty v) = deadline format hours vs := by
  have hanchor : anchor (vs.filter fun v => !isEmpty v) = anchor vs := by
    unfold anchor
    induction vs with
    | nil => rfl
    | cons v vs ih =>
      cases he : isEmpty v with
      | false => simp only [List.filter_cons, he, Bool.not_false, if_true, List.findSome?_cons, ih]
      | true =>
        obtain e | ⟨_ | a, stamp⟩ := v
        · exact nomatch he
        · exact ih
        · exact nomatch he
  rw [deadline, hanchor, deadline]

/-- The first access after some lines anchors the window unless an earlier one has. -/
theorem anchor_append_cons {v : Except ReadingFault Entry} {stamp : UInt64}
    (h : stamp? v = some stamp) (before after : List (Except ReadingFault Entry)) :
    anchor (before ++ v :: after) = some ((anchor before).getD stamp) := by
  rw [anchor, List.findSome?_append, List.findSome?_cons, h, ← anchor]
  cases anchor before <;> rfl

/-- A line without a timestamp anchors nothing. -/
theorem anchor_concat {v : Except ReadingFault Entry} (h : stamp? v = none)
    (before : List (Except ReadingFault Entry)) : anchor (before ++ [v]) = anchor before := by
  rw [anchor, List.findSome?_append, List.findSome?_cons, h, ← anchor]
  cases anchor before <;> rfl

/-- A line without a timestamp is not late. -/
theorem isLate_of_stamp?_eq_none {v : Except ReadingFault Entry} (h : stamp? v = none)
    (last : Option Nat) : isLate last v = false := by
  rw [isLate, h]
  cases last <;> rfl

/-- Whether a line ends a reading does not depend on the lines after it. -/
theorem ends_deadline_append {format : Format} {hours : Option UInt64}
    {vs : List (Except ReadingFault Entry)} {v : Except ReadingFault Entry} (h : v ∈ vs)
    (after : List (Except ReadingFault Entry)) :
    ends (deadline format hours (vs ++ after)) v = ends (deadline format hours vs) v := by
  rw [ends, ends]
  cases hs : stamp? v with
  | none => rw [isLate_of_stamp?_eq_none hs, isLate_of_stamp?_eq_none hs]
  | some stamp =>
    -- the line itself is stamped, so the window is anchored before the lines after it
    have hsome : (anchor vs).isSome := by
      rw [anchor, List.findSome?_isSome_iff]
      exact ⟨v, h, by rw [hs]; rfl⟩
    obtain ⟨first, hfirst⟩ := Option.isSome_iff_exists.mp hsome
    have hsame : anchor (vs ++ after) = anchor vs := by
      rw [anchor, List.findSome?_append, ← anchor, hfirst, Option.some_or]
    rw [deadline, deadline, hsame]

/-- An empty request does not end a reading. -/
theorem ends_of_isEmpty {v : Except ReadingFault Entry} (h : isEmpty v = true)
    (last : Option Nat) : ends last v = false := by
  obtain e | ⟨_ | a, stamp⟩ := v
  · exact nomatch h
  · exact isLate_of_stamp?_eq_none rfl last
  · exact nomatch h

/-- An understood line is an empty request exactly if it has no access. -/
theorem isEmpty_ok (e : Entry) : isEmpty (.ok e) = e.access.isNone := by
  obtain ⟨_ | a, stamp⟩ := e <;> rfl

/-- Without a deadline no line that is understood ends a reading. -/
theorem ends_none_ok (e : Entry) : ends none (.ok e) = false := rfl

/-- A line is an empty request, or it ends the reading, or it gives an access. -/
theorem kinds (last : Option Nat) (v : Except ReadingFault Entry) :
    (isEmpty v = true ∧ ends last v = false ∧ access? v = none) ∨ ends last v = true ∨
      ∃ a, access? v = some a ∧ isLate last v = false ∧ ends last v = false ∧ isEmpty v = false := by
  obtain e | ⟨access, stamp⟩ := v
  · exact Or.inr (Or.inl rfl)
  · cases access with
    | none => exact Or.inl ⟨rfl, ends_of_isEmpty rfl last, rfl⟩
    | some a =>
      cases hl : isLate last (.ok ⟨some a, stamp⟩) with
      | true => exact Or.inr (Or.inl hl)
      | false => exact Or.inr (Or.inr ⟨a, rfl, rfl, hl, rfl⟩)

section Cons

variable {last : Option Nat} {v : Except ReadingFault Entry}
  {vs : List (Except ReadingFault Entry)} {p : Except ReadingFault Entry → Bool}

theorem takeWhile_not_cons_of_pos (h : p v = true) :
    (v :: vs).takeWhile (fun v => !p v) = [] := by
  rw [List.takeWhile_cons, h]
  rfl

theorem takeWhile_not_cons_of_neg (h : p v = false) :
    (v :: vs).takeWhile (fun v => !p v) = v :: vs.takeWhile (fun v => !p v) := by
  rw [List.takeWhile_cons, h]
  rfl

theorem find?_cons_of_eq_false (h : p v = false) : (v :: vs).find? p = vs.find? p := by
  rw [List.find?_cons, h]

theorem filterMap_access?_cons (v : Except ReadingFault Entry)
    (vs : List (Except ReadingFault Entry)) :
    (v :: vs).filterMap access? = (access? v).toList ++ vs.filterMap access? := by
  rw [List.filterMap_cons]
  cases access? v <;> rfl

theorem given_cons_of_ends (h : ends last v = true) : given last (v :: vs) = [] := by
  rw [given, takeWhile_not_cons_of_pos h]
  rfl

theorem given_cons_of_none (h : ends last v = false) (ha : access? v = none) :
    given last (v :: vs) = given last vs := by
  rw [given, takeWhile_not_cons_of_neg h, List.filterMap_cons_none ha]
  rfl

theorem given_cons_of_some (h : ends last v = false) {a : Access} (ha : access? v = some a) :
    given last (v :: vs) = a :: given last vs := by
  rw [given, takeWhile_not_cons_of_neg h, List.filterMap_cons_some ha]
  rfl

theorem steps_cons_of_ends (h : ends last v = true) :
    steps last (v :: vs) = (fault? v).toList.map .fault := by
  rw [steps, given_cons_of_ends h, List.find?_cons_of_pos h]
  rfl

theorem steps_cons_of_none (h : ends last v = false) (ha : access? v = none) :
    steps last (v :: vs) = steps last vs := by
  rw [steps, given_cons_of_none h ha, find?_cons_of_eq_false h, steps]

theorem steps_cons_of_some (h : ends last v = false) {a : Access} (ha : access? v = some a) :
    steps last (v :: vs) = .access a :: steps last vs := by
  rw [steps, given_cons_of_some h ha, find?_cons_of_eq_false h, steps]
  rfl

end Cons

end Line

end Footprint

import Footprint.Proofs.Trace.Transcript

/-!
# Longer limits only add accesses

More hours move the deadline further away, also where the window stops at the greatest
word, so a longer limit keeps the reading going at least as long. Without a limit the
timestamps are not looked at: a line that is refused for its timestamp is then an access
like any other, and no line becomes worse. So line by line, what is passed under a limit
is passed under every longer one and without any.
-/

namespace Footprint

/-- More hours never bring the exact deadline forward. -/
theorem Window.exactLast_mono (format : Format) {shorter longer : UInt64} (h : shorter ≤ longer)
    (anchor : UInt64) : exactLast format shorter anchor ≤ exactLast format longer anchor :=
  Nat.add_le_add_left (Nat.mul_le_mul_right _ (UInt64.le_iff_toNat_le.mp h)) _

namespace Line

/-- What ends later has passed at least as many lines. -/
theorem takeWhile_not_prefix_of_imp {p q : Except ReadingFault Entry → Bool}
    (h : ∀ v, q v = true → p v = true) (vs : List (Except ReadingFault Entry)) :
    (vs.takeWhile fun v => !p v) <+: vs.takeWhile fun v => !q v := by
  have hboth : (fun v => decide ((!p v) = true ∧ (!q v) = true)) = fun v => !p v := by
    funext v
    cases hq : q v with
    | true => rw [h v hq]; rfl
    | false => cases p v <;> rfl
  have htwice := List.takeWhile_takeWhile (fun v => !p v) (fun v => !q v) vs
  rw [hboth] at htwice
  rw [← htwice]
  exact List.takeWhile_prefix _

section Longer

variable {format : Format} {shorter longer : UInt64} {vs : List (Except ReadingFault Entry)}
  {v : Except ReadingFault Entry}

/-- An access after the longer limit is after the shorter one. -/
theorem isLate_of_longer (h : shorter ≤ longer)
    (hlate : isLate (deadline format (some longer) vs) v = true) :
    isLate (deadline format (some shorter) vs) v = true := by
  cases hanchor : anchor vs with
  | none =>
    rw [deadline, hanchor] at hlate
    cases hlate
  | some first =>
    cases hstamp : stamp? v with
    | none =>
      rw [isLate_of_stamp?_eq_none hstamp] at hlate
      cases hlate
    | some stamp =>
      have hmono := Window.exactLast_mono format h first
      simp only [isLate, deadline, hanchor, hstamp, Option.bind_some, Option.map_some,
        Option.any_some, decide_eq_true_eq] at hlate ⊢
      omega

/-- The end under the longer limit is an end under the shorter one. -/
theorem ends_of_longer (h : shorter ≤ longer)
    (hends : ends (deadline format (some longer) vs) v = true) :
    ends (deadline format (some shorter) vs) v = true := by
  rw [ends, Bool.or_eq_true] at hends ⊢
  exact hends.imp_right (isLate_of_longer h)

end Longer

/-- A line that is understood with its timestamp is understood without it. -/
theorem verdict_untimed {format : Format} {timed : Bool} {number : Nat}
    {line : Except Content.Fault String} {e : Entry}
    (h : verdict format timed number line = .ok e) :
    verdict format false number line = .ok { e with timestamp := none } := by
  obtain ⟨_, _, he⟩ | ⟨_, _, _, _, he⟩ | ⟨text, entry, rfl, hparse, he, _⟩ := verdict_cases h
  · exact nomatch he
  · exact nomatch he
  · cases he
    rw [verdict, Entry.parse_untimed hparse]
    rfl

/-- If the first way of ending minds every fault, and all that the second way minds in a line
without its timestamp, then the first passes a part of the accesses that the second passes when
the timestamps are not looked at. -/
theorem filterMap_access?_prefix_untimed {p q : Except ReadingFault Entry → Bool}
    (hfault : ∀ e, p (.error e) = true)
    (hentry : ∀ e : Entry, q (.ok { e with timestamp := none }) = true → p (.ok e) = true)
    (format : Format) (number : Nat) (lines : List (Except Content.Fault String)) :
    (((verdictsFrom format true number lines).takeWhile fun v => !p v).filterMap access?) <+:
      ((verdictsFrom format false number lines).takeWhile fun v => !q v).filterMap access? := by
  induction lines generalizing number with
  | nil => exact List.prefix_refl _
  | cons line rest ih =>
    rw [verdictsFrom, verdictsFrom]
    -- after a fault the first list is at its end, whatever the second one does
    cases hv : verdict format true number line with
    | error e =>
      rw [takeWhile_not_cons_of_pos (hfault e), List.filterMap_nil]
      exact List.nil_prefix
    | ok e =>
      rw [verdict_untimed hv]
      cases hp : p (.ok e) with
      | true =>
        rw [takeWhile_not_cons_of_pos hp, List.filterMap_nil]
        exact List.nil_prefix
      | false =>
        have hq : q (.ok { e with timestamp := none }) = false :=
          Bool.eq_false_iff.mpr fun hq => Bool.false_ne_true (hp.symm.trans (hentry e hq))
        have hsame : access? (.ok { e with timestamp := none }) = access? (.ok e) := rfl
        rw [takeWhile_not_cons_of_neg hp, takeWhile_not_cons_of_neg hq, filterMap_access?_cons,
          filterMap_access?_cons, hsame, List.prefix_append_right_inj]
        exact ih (number + 1)

/-- Only a fault ends a reading without a deadline. -/
theorem ends_none_untimed {last : Option Nat} (e : Entry)
    (h : ends none (.ok { e with timestamp := none }) = true) : ends last (.ok e) = true :=
  nomatch h

end Line

namespace Reading

/-- The accesses given under a limit are the first of those given under a longer one. -/
theorem accesses_prefix_of_longer {shorter longer : UInt64} (h : shorter ≤ longer)
    (format : Format) (content : Content) :
    (start format (some shorter) content).accesses <+:
      (start format (some longer) content).accesses := by
  rw [accesses_start, accesses_start]
  exact (Line.takeWhile_not_prefix_of_imp (fun v => Line.ends_of_longer h) _).filterMap _

/-- The accesses given under a limit are the first of those given without one. -/
theorem accesses_prefix_unlimited (format : Format) (hours : UInt64) (content : Content) :
    (start format (some hours) content).accesses <+: (start format none content).accesses := by
  rw [accesses_start, accesses_start]
  exact Line.filterMap_access?_prefix_untimed (fun _ => rfl) Line.ends_none_untimed format 1
    content.lines

end Reading

end Footprint

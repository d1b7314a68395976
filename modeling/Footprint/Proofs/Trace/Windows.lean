import Footprint.Proofs.Trace.Verdicts

/-!
# What a window answers

A window is shown timestamps one after another. The first one anchors it, and from then on
no timestamp changes it, whether it is before the anchor, inside or late. So all answers are
given by one deadline. It is computed with two caps, one on the length and one on the end,
and is still the exact deadline wherever that is a word; where it is not, no timestamp lies
beyond either of them.
-/

namespace Footprint.Window

/-- The answers of a window to timestamps shown one after another, and the last timestamp it admits
after each of them. -/
def answers (w : Window) : List UInt64 → List (Bool × Option UInt64)
  | [] => []
  | stamp :: rest =>
    ((w.accept stamp).1, (w.accept stamp).2.last) :: (w.accept stamp).2.answers rest

/-- An anchored window answers by its last admitted timestamp, and keeps it. -/
theorem answers_of_last {w : Window} {last : UInt64} (h : w.last = some last)
    (stamps : List UInt64) :
    w.answers stamps = stamps.map fun stamp => (decide (stamp ≤ last), some last) := by
  induction stamps with
  | nil => rfl
  | cons stamp rest ih => rw [answers, accept_of_last h, ih, h, List.map_cons]

/-- All answers of a window are given by the timestamp it admits last after the first of them. -/
theorem answers_cons (w : Window) (first : UInt64) (rest : List UInt64) :
    w.answers (first :: rest) =
      (first :: rest).map fun stamp =>
        (decide (stamp ≤ w.lastFor first), some (w.lastFor first)) := by
  have hlast : (w.accept first).2.last = some (w.lastFor first) := rfl
  rw [answers, answers_of_last hlast, List.map_cons, hlast]
  rfl

/-- A window admits, of any timestamps shown to it, exactly those that are not after the first of
them by more than its hours, in exact arithmetic; and after each answer the last timestamp it
admits is that deadline, or the greatest word if the deadline is larger. -/
theorem answers_exact (format : Format) (hours first : UInt64) (rest : List UInt64) :
    ((ofHours format hours).answers (first :: rest)).map (fun a => (a.1, a.2.map UInt64.toNat)) =
      (first :: rest).map fun stamp =>
        (decide (stamp.toNat ≤ exactLast format hours first),
          some (min (exactLast format hours first) (UInt64.size - 1))) := by
  have hlast : (ofHours format hours).lastFor first =
      Word.addCapped first (ofHours format hours).length := rfl
  rw [answers_cons, List.map_map]
  apply List.map_congr_left
  intro stamp _
  have hanswer : decide (stamp ≤ Word.addCapped first (ofHours format hours).length) =
      decide (stamp.toNat ≤ exactLast format hours first) :=
    decide_eq_decide.mpr le_last_iff
  rw [Function.comp_apply, hlast, hanswer, Option.map_some, toNat_last]

/- The product of hours and ticks and the deadline are both beyond the words. -/
example : (ofHours .fiu 18446744073709551615).answers [7, 0, 18446744073709551615] =
    [(true, some 18446744073709551615), (true, some 18446744073709551615),
      (true, some 18446744073709551615)] := by decide +kernel

end Footprint.Window

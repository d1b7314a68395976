import Footprint.Proofs.Trace.Transcript

/-!
# Readings in lock step

What a line does to a reading is decided by its verdict and by where the reading
stands. So two readings that stand at the same place, and whose lines to come have the
same verdicts, give the same steps and the same counters however often they are asked,
although the lines themselves may differ.
-/

namespace Footprint

namespace Progress

/-- What the verdict on the next line does to a reading. -/
def follow (p : Progress) : Except ReadingFault Entry → Effect × Progress
  | .error (.content e) => (.fail (.content e), p)
  | .error (.entry e) => (.fail (.entry e), p.count)
  | .ok ⟨none, _⟩ => (.pass, p.count.countEmpty)
  | .ok ⟨some access, timestamp⟩ => p.count.show? access timestamp

/-- A line does what its verdict does. -/
theorem take_eq_follow (format : Format) (p : Progress) (line : Except Content.Fault String) :
    p.take format line =
      p.follow (Line.verdict format p.window.isSome (p.stats.lines + 1) line) := by
  cases line with
  | error e => rfl
  | ok text =>
    have hparse : Entry.parse format.layout p.count.stats.lines text p.count.window.isSome =
        Entry.parse format.layout (p.stats.lines + 1) text p.window.isSome := rfl
    rw [take, Line.verdict]
    simp only [hparse]
    obtain e | ⟨_ | access, timestamp⟩ :=
      Entry.parse format.layout (p.stats.lines + 1) text p.window.isSome <;> rfl

/-- An access leaves the window set or unset, and the counters of lines as they are. -/
theorem show?_keeps (p : Progress) (access : Access) (timestamp : Option UInt64) :
    (p.show? access timestamp).2.window.isSome = p.window.isSome ∧
      (p.show? access timestamp).2.stats.lines = p.stats.lines := by
  obtain ⟨window, stats⟩ := p
  cases window with
  | none => exact ⟨rfl, rfl⟩
  | some window =>
    cases timestamp with
    | none => exact ⟨rfl, rfl⟩
    | some stamp =>
      simp only [show?]
      split <;> exact ⟨rfl, rfl⟩

/-- A line after which the reading goes on is counted, and a limit stays a limit. -/
theorem follow_keeps {p p' : Progress} {v : Except ReadingFault Entry} {effect : Effect}
    (h : p.follow v = (effect, p')) (hgo : ∀ fault, effect ≠ .fail fault) :
    p'.window.isSome = p.window.isSome ∧ p'.stats.lines = p.stats.lines + 1 := by
  obtain (e | e) | ⟨_ | access, timestamp⟩ := v
  · cases h
    exact absurd rfl (hgo _)
  · cases h
    exact absurd rfl (hgo _)
  · cases h
    exact ⟨rfl, rfl⟩
  · have hkeeps := p.count.show?_keeps access timestamp
    have hshow : p.count.show? access timestamp = (effect, p') := h
    rw [hshow] at hkeeps
    exact hkeeps

end Progress

namespace Reading

/-- The verdicts on the lines still to be read. -/
def verdicts (r : Reading) : List (Except ReadingFault Entry) :=
  Line.verdictsFrom r.format r.progress.window.isSome (r.progress.stats.lines + 1) r.pending

/-- Two readings stand at the same place and have the same verdicts before them. -/
structure Alike (r s : Reading) : Prop where
  /-- Both read the same format. -/
  format : r.format = s.format
  /-- Both have the same window and the same counters. -/
  progress : r.progress = s.progress
  /-- The lines still to be read say the same. -/
  verdicts : r.verdicts = s.verdicts

/-- Readings that are alike give the same step and are alike after it. -/
theorem Alike.next {r s : Reading} (h : r.Alike s) :
    r.next.1 = s.next.1 ∧ r.next.2.Alike s.next.2 := by
  obtain ⟨format, p, lines⟩ := r
  obtain ⟨format', p', lines'⟩ := s
  obtain ⟨rfl, rfl, hverdicts⟩ := h
  induction lines generalizing p lines' with
  | nil =>
    cases lines' with
    | nil => exact ⟨rfl, rfl, rfl, rfl⟩
    | cons line' rest' => cases hverdicts
  | cons line rest ih =>
    cases lines' with
    | nil => cases hverdicts
    | cons line' rest' =>
      obtain ⟨hline, hrest⟩ := List.cons.inj hverdicts
      rw [next_of_pending_eq_cons rfl, next_of_pending_eq_cons rfl]
      dsimp only at hline ⊢
      rw [Progress.take_eq_follow, Progress.take_eq_follow, ← hline]
      -- the verdict is followed in both, and the numbers of the later lines go up by one
      obtain ⟨⟨effect, p'⟩, hfollow⟩ : ∃ q, p.follow
          (Line.verdict format p.window.isSome (p.stats.lines + 1) line) = q := ⟨_, rfl⟩
      rw [hfollow]
      cases effect with
      | fail fault => exact ⟨rfl, rfl, rfl, rfl⟩
      | close => exact ⟨rfl, rfl, rfl, rfl⟩
      | pass =>
        obtain ⟨hwindow, hlines⟩ := Progress.follow_keeps hfollow nofun
        apply ih
        rw [Reading.verdicts, Reading.verdicts, hwindow, hlines]
        exact hrest
      | give access =>
        obtain ⟨hwindow, hlines⟩ := Progress.follow_keeps hfollow nofun
        refine ⟨rfl, rfl, rfl, ?_⟩
        rw [Reading.verdicts, Reading.verdicts, hwindow, hlines]
        exact hrest

/-- Readings that are alike stay alike, however often they are asked. -/
theorem Alike.after {r s : Reading} (h : r.Alike s) (n : Nat) : (r.after n).Alike (s.after n) := by
  induction n generalizing r s with
  | zero => exact h
  | succ n ih => exact ih h.next.2

/-- Readings that are alike have the same counters. -/
theorem Alike.stats_eq {r s : Reading} (h : r.Alike s) : r.stats = s.stats :=
  congrArg Progress.stats h.progress

/-- Contents whose lines have the same verdicts are read alike. -/
theorem alike_start {format : Format} {hours : Option UInt64} {content content' : Content}
    (h : Line.verdicts format hours.isSome content.lines =
      Line.verdicts format hours.isSome content'.lines) :
    (start format hours content).Alike (start format hours content') where
  format := rfl
  progress := rfl
  verdicts := by
    simpa only [verdicts, start, Progress.start, Option.isSome_map, Line.verdicts] using h

end Reading

end Footprint

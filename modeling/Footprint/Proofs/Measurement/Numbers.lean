import Footprint.Proofs.Measurement.Faults

/-!
# Line numbers occur in faults only

A line that comes later in a trace has a greater number. Its number is repeated in the
fault of a line that cannot be understood and is used for nothing else: what the line
says, whether it is empty or counted and whether its access can be spread do not
depend on it.
-/

namespace Footprint

/-- The refusal of the same line so many lines later. -/
def Entry.Fault.later (k : Nat) : Entry.Fault → Entry.Fault
  | .tooFewFields line needed found delimiter => .tooFewFields (line + k) needed found delimiter
  | .notANumber line index field text => .notANumber (line + k) index field text

/-- The fault of a reading so many lines later; only a line that was read has a number. -/
def ReadingFault.later (k : Nat) : ReadingFault → ReadingFault
  | .entry e => .entry (e.later k)
  | .content e => .content e

/-- The fault of a measurement so many lines later; an overflow has no number. -/
def MeasurementFault.later (k : Nat) : MeasurementFault → MeasurementFault
  | .reading e => .reading (e.later k)
  | .overflow o => .overflow o

namespace Entry

private theorem mapError_bind {ε ε' α β : Type} (g : ε → ε') (x : Except ε α)
    (f : α → Except ε β) : (x >>= f).mapError g = x.mapError g >>= fun a => (f a).mapError g := by
  cases x <;> rfl

private theorem mapM_mapError {ε ε' α β : Type} (g : ε → ε') (f : α → Except ε β)
    (raw : Option α) :
    raw.mapM (fun a => (f a).mapError g) = (raw.mapM f).mapError g := by
  cases raw with
  | none => rfl
  | some a =>
    rw [Option.mapM_some, Option.mapM_some]
    cases f a <;> rfl

variable {layout : Layout}

/-- A field is read in the same way on a later line. -/
theorem number_later (line k : Nat) (field : Field) (raw : List Char) :
    number layout (line + k) field raw = (number layout line field raw).mapError (.later k) := by
  unfold number
  cases Text.word? (Text.trim raw) <;> rfl

/-- A line is read in the same way later in the trace. -/
theorem parse_later (line k : Nat) (text : String) (timed : Bool) :
    parse layout (line + k) text timed = (parse layout line text timed).mapError (.later k) := by
  have hnumber (field : Field) : number layout (line + k) field =
      fun raw => (number layout line field raw).mapError (Fault.later k) :=
    funext (number_later line k field)
  unfold parse
  dsimp only
  split
  · simp only [mapError_bind, hnumber, mapM_mapError]
    rfl
  · rfl

end Entry

namespace Line

/-- The verdict on the same line so many lines later. -/
def later (k : Nat) (v : Except ReadingFault Entry) : Except ReadingFault Entry :=
  v.mapError (.later k)

/-- A line later in the trace has the later verdict. -/
theorem verdict_later (format : Format) (timed : Bool) (number k : Nat)
    (line : Except Content.Fault String) :
    verdict format timed (number + k) line = later k (verdict format timed number line) := by
  cases line with
  | error e => rfl
  | ok text =>
    rw [verdict, verdict, Entry.parse_later]
    cases Entry.parse format.layout number text timed <;> rfl

/-- Lines later in the trace have the later verdicts. -/
theorem verdictsFrom_later (format : Format) (timed : Bool) (number k : Nat)
    (lines : List (Except Content.Fault String)) :
    verdictsFrom format timed (number + k) lines =
      (verdictsFrom format timed number lines).map (later k) := by
  induction lines generalizing number with
  | nil => rfl
  | cons line rest ih =>
    rw [verdictsFrom, verdictsFrom, verdict_later, Nat.add_right_comm, ih, List.map_cons]

/-- The verdicts on lines after others are those on the lines alone, so many lines later. -/
theorem verdicts_append (format : Format) (timed : Bool)
    (lines more : List (Except Content.Fault String)) :
    verdicts format timed (lines ++ more) =
      verdicts format timed lines ++ (verdicts format timed more).map (later lines.length) := by
  rw [verdicts, verdictsFrom_append, verdictsFrom_later, ← verdicts, ← verdicts]

@[simp] theorem access?_later (k : Nat) (v : Except ReadingFault Entry) :
    access? (later k v) = access? v := by
  cases v <;> rfl

@[simp] theorem isEmpty_later (k : Nat) (v : Except ReadingFault Entry) :
    isEmpty (later k v) = isEmpty v := by
  cases v <;> rfl

@[simp] theorem counts_later (k : Nat) (v : Except ReadingFault Entry) :
    counts (later k v) = counts v := by
  obtain (e | e) | entry := v <;> rfl

/-- A line has the same defect later in the trace, under the later number. -/
@[simp] theorem defect?_later (units : Grid) (k : Nat) (v : Except ReadingFault Entry) :
    defect? units (later k v) = (defect? units v).map (.later k) := by
  obtain e | ⟨_ | a, stamp⟩ := v
  · rfl
  · rfl
  · have hsame : later k (.ok ⟨some a, stamp⟩) = .ok ⟨some a, stamp⟩ := rfl
    rw [hsame]
    simp only [defect?, Option.bind_some]
    cases a.units units <;> rfl

end Line

end Footprint

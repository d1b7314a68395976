import Footprint.Proofs.Text.Grammar
import Footprint.Trace.Entry

/-!
# How a line of a trace reads

A line that has the fields a start and a length need reads as an access, or as an empty
request, if every field that is asked for is a number once it is trimmed. Otherwise it is
refused, for its fields if they are too few, and else for the first of the fields asked for,
in the order start, length, timestamp, that is no number. A relation on lines states this
without any function of reading, and entries are read exactly by it. So nothing else on a
line, and nothing after the fields that are asked for, makes a difference.
-/

namespace Footprint.Entry

/-- The fields that are asked for, in the order in which they are checked. -/
def asked (timed : Bool) : List Field :=
  if timed then [.start, .length, .timestamp] else [.start, .length]

/-- A line has one field more than it has delimiters. -/
def fieldCount (layout : Layout) (line : List Char) : Nat :=
  line.count layout.delimiter + 1

/-- The line has the field, and its text without the blanks around it is the given one. -/
def Holds (layout : Layout) (line : List Char) (field : Field) (text : List Char) : Prop :=
  ∃ raw, Text.IsField layout.delimiter line (field.index layout) raw ∧ Text.TrimsTo raw text

/-- The field of the line is a number, and the number is a word. -/
def Gives (layout : Layout) (line : List Char) (field : Field) (w : UInt64) : Prop :=
  ∃ text, Holds layout line field text ∧ Text.Signed text w.toNat

/-- The timestamp of a line, which there is exactly if it is asked for. -/
inductive Stamped (layout : Layout) (line : List Char) : Bool → Option UInt64 → Prop
  /-- A timestamp that is asked for is the number in its field. -/
  | timed {w : UInt64} : Gives layout line .timestamp w → Stamped layout line true (some w)
  /-- Otherwise its field does not matter. -/
  | untimed : Stamped layout line false none

/-- The entry that a line reads as, or why it is refused. -/
inductive Reads (layout : Layout) (number : Nat) (line : List Char) (timed : Bool) :
    Except Fault Entry → Prop
  /-- A line may have too few fields for a start and a length. -/
  | tooFewFields :
      fieldCount layout line < layout.fieldsNeeded →
      Reads layout number line timed (.error (.tooFewFields number layout.fieldsNeeded
        (fieldCount layout line) layout.delimiter))
  /-- A field that is asked for may be no number where all before it are numbers. -/
  | notANumber {before after : List Field} {field : Field} {text : List Char} :
      layout.fieldsNeeded ≤ fieldCount layout line →
      asked timed = before ++ field :: after →
      (∀ earlier ∈ before, ∃ w, Gives layout line earlier w) →
      Holds layout line field text →
      (∀ w : UInt64, ¬Text.Signed text w.toNat) →
      Reads layout number line timed
        (.error (.notANumber number (field.index layout) field (String.ofList text)))
  /-- A line with a positive length reads as an access. -/
  | access {a : Access} {stamp : Option UInt64} :
      layout.fieldsNeeded ≤ fieldCount layout line →
      Gives layout line .start a.start →
      Gives layout line .length a.length →
      Stamped layout line timed stamp →
      Reads layout number line timed (.ok ⟨some a, stamp⟩)
  /-- A line with length zero reads as an empty request. -/
  | empty {start : UInt64} {stamp : Option UInt64} :
      layout.fieldsNeeded ≤ fieldCount layout line →
      Gives layout line .start start →
      Gives layout line .length 0 →
      Stamped layout line timed stamp →
      Reads layout number line timed (.ok ⟨none, stamp⟩)

/-- Two lines have the fields a start and a length need, and hold the same trimmed texts in the
fields that are asked for. -/
structure Agree (layout : Layout) (timed : Bool) (line other : List Char) : Prop where
  /-- The first line has enough fields. -/
  enough : layout.fieldsNeeded ≤ fieldCount layout line
  /-- The other line has enough fields. -/
  enough_other : layout.fieldsNeeded ≤ fieldCount layout other
  /-- What is asked for is the same text in both. -/
  holds_iff_holds : ∀ field ∈ asked timed, ∀ text,
    Holds layout line field text ↔ Holds layout other field text

section Numbers

variable {layout : Layout} {number : Nat} {field : Field} {raw : List Char}

end Numbers

section LongEnough

variable {layout : Layout} {line : List Char}

variable {raw : Field → List Char}
  (hraw : ∀ field, (Text.fields layout.delimiter line)[field.index layout]? = some (raw field))

include hraw

end LongEnough

section Reading

variable {layout : Layout} {number : Nat} {text : String} {timed : Bool}

end Reading

namespace Agree

variable {layout : Layout} {timed : Bool} {line other : List Char}

/-- Lines that agree give the same numbers in the fields that are asked for. -/
theorem gives (h : Agree layout timed line other) {field : Field} {w : UInt64}
    (hfield : field ∈ asked timed) (hw : Gives layout line field w) :
    Gives layout other field w := by
  obtain ⟨text, hholds, hsigned⟩ := hw
  exact ⟨text, (h.holds_iff_holds field hfield text).mp hholds, hsigned⟩

/-- Lines that agree have the same timestamp, if it is asked for. -/
theorem stamped (h : Agree layout timed line other) {stamp : Option UInt64}
    (hstamped : Stamped layout line timed stamp) : Stamped layout other timed stamp := by
  cases hstamped with
  | timed hw => exact .timed (h.gives (by decide) hw)
  | untimed => exact .untimed

/-- Lines that agree read the same. -/
theorem reads (h : Agree layout timed line other) {number : Nat} {r : Except Fault Entry}
    (hr : Reads layout number line timed r) : Reads layout number other timed r := by
  have hstart : .start ∈ asked timed := by cases timed <;> decide
  have hlength : .length ∈ asked timed := by cases timed <;> decide
  cases hr with
  | tooFewFields hfew => exact absurd h.enough (Nat.not_le_of_lt hfew)
  | @notANumber before after field text _ hasked hbefore hholds hno =>
    have hfield : field ∈ asked timed := by
      rw [hasked]
      exact List.mem_append_right before List.mem_cons_self
    refine .notANumber h.enough_other hasked ?_ ((h.holds_iff_holds _ hfield _).mp hholds) hno
    intro earlier hearlier
    obtain ⟨w, hw⟩ := hbefore earlier hearlier
    have hmem : earlier ∈ asked timed := by
      rw [hasked]
      exact List.mem_append_left _ hearlier
    exact ⟨w, h.gives hmem hw⟩
  | access _ hs hl hstamped =>
    exact .access h.enough_other (h.gives hstart hs) (h.gives hlength hl) (h.stamped hstamped)
  | empty _ hs hl hstamped =>
    exact .empty h.enough_other (h.gives hstart hs) (h.gives hlength hl) (h.stamped hstamped)

end Agree

end Footprint.Entry

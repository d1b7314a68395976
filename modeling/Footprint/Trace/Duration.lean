import Footprint.Text.Numeral
import Footprint.Text.Quoted

/-!
# Durations

A duration is a positive whole number of hours or days, written as a numeral
directly followed by `h` or `d`. Blanks are not allowed anywhere. The number and
the hours it stands for must be words.
-/

namespace Footprint.Duration

/-- The hours in one of the units that a letter stands for. -/
def hoursIn : Char → Option UInt64
  | 'h' => some 1
  | 'd' => some 24
  | _ => none

/-- A text that is no duration. -/
structure Invalid where
  /-- The text as given. -/
  text : String
  deriving DecidableEq, Repr

/-- The refusal of a text in words. -/
def Invalid.message (e : Invalid) : String :=
  s!"invalid duration {Text.quoted e.text} (expected e.g. `12h` or `2d`)"

/-- The hours in a duration. -/
def hours? (text : String) : Option UInt64 := do
  let hours ← hoursIn (← text.toList.getLast?)
  let count ← Text.word? text.toList.dropLast
  if count = 0 then none else Word.mul? count hours

/-- The hours in a duration, or the text as invalid. -/
def hours (text : String) : Except Invalid UInt64 :=
  match hours? text with
  | some h => .ok h
  | none => .error ⟨text⟩

end Footprint.Duration

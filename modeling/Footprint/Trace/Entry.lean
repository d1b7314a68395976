import Footprint.Access
import Footprint.Format
import Footprint.Text.Blank
import Footprint.Text.Fields
import Footprint.Text.Numeral
import Footprint.Text.Quoted

/-!
# Entries

A line of a trace is divided into fields at the delimiter of its format. The
start and the length are always read, the timestamp only on demand; each must be
a numeral once the blanks around it are removed. No other field is looked at.
When several things are wrong with a line, missing fields are reported before
bad numbers, and bad numbers in the order start, length, timestamp.
-/

namespace Footprint

/-- What one line of a trace says. -/
structure Entry where
  /-- The access, or nothing for a request of length zero. -/
  access : Option Access
  /-- The timestamp, if it was asked for. -/
  timestamp : Option UInt64
  deriving DecidableEq

namespace Entry

/-- The fields that are read. -/
inductive Field where
  /-- Where the access starts. -/
  | start
  /-- How long the access is. -/
  | length
  /-- When the access was made. -/
  | timestamp
  deriving DecidableEq, Repr

/-- What a field holds, in words. -/
def Field.name : Field → String
  | .start => "start address"
  | .length => "length"
  | .timestamp => "timestamp"

/-- The number of a field in a layout. -/
def Field.index (layout : Layout) : Field → Nat
  | .start => layout.start
  | .length => layout.length
  | .timestamp => layout.timestamp

/-- Why a line is refused; lines are numbered from one. -/
inductive Fault where
  /-- The line has fewer fields than a start and a length need. -/
  | tooFewFields (line needed found : Nat) (delimiter : Char)
  /-- The trimmed text of a field is not a numeral below `2 ^ 64`. -/
  | notANumber (line index : Nat) (field : Field) (text : String)
  deriving DecidableEq, Repr

/-- The refusal of a line in words. -/
def Fault.message : Fault → String
  | .tooFewFields line needed found delimiter =>
    s!"line {line}: expected at least {needed} '{delimiter}'-separated fields, found {found}"
  | .notANumber line index field text =>
    s!"line {line}: field {index} ({field.name}) is not an unsigned integer: " ++ Text.quoted text

/-- The number in the given field. -/
def number (layout : Layout) (line : Nat) (field : Field) (raw : List Char) :
    Except Fault UInt64 :=
  match Text.word? (Text.trim raw) with
  | some w => .ok w
  | none => .error (.notANumber line (field.index layout) field (String.ofList (Text.trim raw)))

/-- The entry on one line, without its terminator. -/
def parse (layout : Layout) (line : Nat) (text : String) (timed : Bool) : Except Fault Entry :=
  let fields := Text.fields layout.delimiter text.toList
  match fields[layout.start]?, fields[layout.length]? with
  | some start, some length => do
    let start ← number layout line .start start
    let length ← number layout line .length length
    let stamp := if timed then fields[layout.timestamp]? else none
    let timestamp ← stamp.mapM (number layout line .timestamp)
    return { access := Access.ofRequest? start length, timestamp }
  | _, _ => .error (.tooFewFields line layout.fieldsNeeded fields.length layout.delimiter)

end Entry

end Footprint

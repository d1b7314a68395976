import Footprint.Text.Fields

/-!
# Sources and their lines

A source delivers bytes in pieces. An interrupted delivery is tried again and
leaves no trace; a failed one ends the source. Only the bytes before the first
failure and the failure itself matter, so how the bytes were cut into pieces can
not be seen in the lines.

A line ends at a line feed and nowhere else. A carriage return directly before
the line feed is dropped with it. The bytes after the last line feed are a line
of their own unless there are none, or unless the source failed: then they are
lost, and the failure is reported in their place even if they are not text.
-/

namespace Footprint

/-- One delivery of a source. -/
inductive Delivery where
  /-- Some bytes. -/
  | data (bytes : List UInt8)
  /-- Nothing yet; the delivery is tried again. -/
  | interrupted
  /-- The source failed for the stated reason. -/
  | failed (reason : String)
  deriving DecidableEq, Repr

/-- What a source delivers before it ends or fails. -/
structure Content where
  /-- All bytes in order. -/
  bytes : List UInt8
  /-- Why the source failed, if it did. -/
  failure : Option String
  deriving DecidableEq, Repr

namespace Content

/-- The content made of the given deliveries. -/
def ofDeliveries : List Delivery → Content
  | [] => ⟨[], none⟩
  | .data bytes :: rest =>
    let c := ofDeliveries rest
    ⟨bytes ++ c.bytes, c.failure⟩
  | .interrupted :: rest => ofDeliveries rest
  | .failed reason :: _ => ⟨[], some reason⟩

/-- A text without a failure. -/
def ofText (text : String) : Content :=
  ⟨text.toUTF8.toList, none⟩

/-- Why a line could not be read. -/
inductive Fault where
  /-- The source failed for the stated reason. -/
  | failed (reason : String)
  /-- The bytes of the line are not UTF-8. -/
  | notText
  deriving DecidableEq, Repr

/-- The reason in words. -/
def Fault.reason : Fault → String
  | .failed reason => reason
  | .notText => "stream did not contain valid UTF-8"

/-- The failure to read a line in words. -/
def Fault.message (e : Fault) : String :=
  "I/O error: " ++ e.reason

/-- The bytes of a terminated line without a final carriage return. -/
def dropReturn (bytes : List UInt8) : List UInt8 :=
  if bytes.getLast? = some 13 then bytes.dropLast else bytes

/-- The text of a line. -/
def decode (bytes : List UInt8) : Except Fault String :=
  match String.fromUTF8? bytes.toByteArray with
  | some text => .ok text
  | none => .error .notText

/-- What stands for the bytes after the last line feed. -/
def lastLine (bytes : List UInt8) : Option String → List (Except Fault String)
  | some reason => [.error (.failed reason)]
  | none => if bytes = [] then [] else [decode bytes]

/-- The lines of a content without their terminators. -/
def lines (c : Content) : List (Except Fault String) :=
  let parts := Text.fields 10 c.bytes
  parts.dropLast.map (fun bytes => decode (dropReturn bytes)) ++
    lastLine (parts.getLast?.getD []) c.failure

/-- A line is decoded to the text whose UTF-8 bytes it holds. -/
theorem decode_eq_ok_iff {bytes : List UInt8} {text : String} :
    decode bytes = .ok text ↔ text.toByteArray = bytes.toByteArray := by
  unfold decode String.fromUTF8?
  constructor
  · intro h
    split at h
    · rename_i s hs
      split at hs
      · cases hs
        cases h
        rfl
      · exact nomatch hs
    · exact nomatch h
  · intro h
    rw [← h, dif_pos text.isValidUTF8]
    rfl

end Content

end Footprint

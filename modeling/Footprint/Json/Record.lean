import Footprint.Json.Value

/-!
# Records

The objects that the program writes are flat: every member is a leaf. They have
a compact form without blanks and a form with one member to a line, indented by
two spaces.
-/

namespace Footprint.Json

namespace Leaf

/-- A word as a number. -/
def ofWord (w : UInt64) : Leaf :=
  .number (Nat.toDigits 10 w.toNat)

/-- A natural number. -/
def ofNat (n : Nat) : Leaf :=
  .number (Nat.toDigits 10 n)

/-- A text as a string. -/
def ofText (s : String) : Leaf :=
  .string (escape s.toList)

/-- The text of a leaf. -/
def render : Leaf → List Char
  | .null => ['n', 'u', 'l', 'l']
  | .bool true => ['t', 'r', 'u', 'e']
  | .bool false => ['f', 'a', 'l', 's', 'e']
  | .number written => written
  | .string written => '"' :: (written ++ ['"'])

end Leaf

/-- The members of a flat object; names are given as text. -/
abbrev Record := List (String × Leaf)

namespace Record

/-- The record as a value. -/
def toJson (r : Record) : Json :=
  .object (r.map fun member => (escape member.1.toList, .leaf member.2))

/-- A name with its quotes. -/
def renderName (name : String) : List Char :=
  Leaf.render (.ofText name)

/-- The record on one line without blanks. -/
def compact (r : Record) : List Char :=
  '{' :: (List.intercalate [','] (r.map fun (name, value) =>
    renderName name ++ ':' :: value.render) ++ ['}'])

/-- The record with one member to a line; a record without members is on one line. -/
def pretty : Record → List Char
  | [] => ['{', '}']
  | r => '{' :: '\n' :: (List.intercalate [',', '\n'] (r.map fun (name, value) =>
      ' ' :: ' ' :: (renderName name ++ ':' :: ' ' :: value.render)) ++ ['\n', '}'])

end Record

end Footprint.Json

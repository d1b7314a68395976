import Footprint.Text.Printable

/-!
# Quoted text

Text that appears in a message stands between double quotes. Four controls, the
double quote and the backslash have short escapes; any other character that is
not printable is written by its code point in hexadecimal. The single quote
stays as it is.
-/

namespace Footprint.Text

/-- A character by its code point, in lower-case hexadecimal without padding. -/
def escapedCodePoint (c : Char) : List Char :=
  '\\' :: 'u' :: '{' :: (Nat.toDigits 16 c.toNat ++ ['}'])

/-- A character as it stands between double quotes. -/
def quotedChar (c : Char) : List Char :=
  match c with
  | '\x00' => ['\\', '0']
  | '\t' => ['\\', 't']
  | '\r' => ['\\', 'r']
  | '\n' => ['\\', 'n']
  | '"' => ['\\', '"']
  | '\\' => ['\\', '\\']
  | c => if isPrintable c then [c] else escapedCodePoint c

/-- The text between double quotes. -/
def quoted (s : String) : String :=
  String.ofList ('"' :: (s.toList.flatMap quotedChar ++ ['"']))

end Footprint.Text

import Footprint.Json.Escape

/-!
# Tokens of JSON text

A text is scanned one character at a time into brackets, separators and leaves.
Numbers and strings are kept as they are written. Four blanks separate tokens;
a string holds no control below the space and only escapes of a known form.
-/

namespace Footprint.Json

/-- A value without parts; numbers and strings are kept as written. -/
inductive Leaf where
  /-- The null value. -/
  | null
  /-- A truth value. -/
  | bool (value : Bool)
  /-- A number, with its sign, fraction and exponent. -/
  | number (written : List Char)
  /-- A string, between its quotes. -/
  | string (written : List Char)
  deriving DecidableEq, Repr

/-- The smallest parts of a text. -/
inductive Token where
  /-- A value without parts. -/
  | leaf (value : Leaf)
  /-- An array begins. -/
  | arrayBegin
  /-- An array ends. -/
  | arrayEnd
  /-- An object begins. -/
  | objectBegin
  /-- An object ends. -/
  | objectEnd
  /-- The value of a member follows. -/
  | colon
  /-- Another item or member follows. -/
  | comma
  deriving DecidableEq, Repr

/-- What has been read of a number. -/
inductive NumberPart where
  /-- Only the minus sign. -/
  | minus
  /-- A whole part that is zero. -/
  | zero
  /-- A whole part that starts with another digit. -/
  | whole
  /-- The decimal point. -/
  | point
  /-- Digits after the point. -/
  | fraction
  /-- The letter of an exponent. -/
  | exponent
  /-- The sign of an exponent. -/
  | exponentSign
  /-- Digits of an exponent. -/
  | power
  deriving DecidableEq, Repr

namespace NumberPart

/-- The part of a number that begins with the character. -/
def start? (c : Char) : Option NumberPart :=
  if c = '-' then some minus
  else if c = '0' then some zero
  else if c.isDigit then some whole
  else none

private def mark? (c : Char) : Option NumberPart :=
  if c = 'e' ∨ c = 'E' then some exponent else none

/-- The part of a number after one more character. -/
def next? : NumberPart → Char → Option NumberPart
  | minus, c => if c = '0' then some zero else if c.isDigit then some whole else none
  | zero, c => if c = '.' then some point else mark? c
  | whole, c => if c.isDigit then some whole else if c = '.' then some point else mark? c
  | point, c => if c.isDigit then some fraction else none
  | fraction, c => if c.isDigit then some fraction else mark? c
  | exponent, c =>
    if c = '+' ∨ c = '-' then some exponentSign else if c.isDigit then some power else none
  | exponentSign, c => if c.isDigit then some power else none
  | power, c => if c.isDigit then some power else none

/-- A number may end here. -/
def isComplete : NumberPart → Bool
  | zero | whole | fraction | power => true
  | minus | point | exponent | exponentSign => false

end NumberPart

/-- Where the scan of a text stands; written characters are kept last first. -/
inductive ScanMode where
  /-- Between two tokens. -/
  | between
  /-- Inside the name of a leaf, of which the given characters must follow. -/
  | named (rest : List Char) (value : Leaf)
  /-- Inside a number. -/
  | number (part : NumberPart) (written : List Char)
  /-- Inside a string. -/
  | string (written : List Char)
  /-- Directly after a backslash in a string. -/
  | escape (written : List Char)
  /-- Inside a code unit, of which so many digits must follow. -/
  | unit (digits : Nat) (written : List Char)

/-- A scan in progress. -/
structure Scan where
  /-- Where the scan stands. -/
  mode : ScanMode
  /-- The tokens found, last first. -/
  found : List Token

namespace Scan

/-- Nothing has been scanned. -/
def start : Scan := ⟨.between, []⟩

/-- The token that a punctuation mark stands for. -/
def punctuation? : Char → Option Token
  | '[' => some .arrayBegin
  | ']' => some .arrayEnd
  | '{' => some .objectBegin
  | '}' => some .objectEnd
  | ':' => some .colon
  | ',' => some .comma
  | _ => none

/-- The rest of the name and the leaf that a letter begins. -/
def named? : Char → Option (List Char × Leaf)
  | 'n' => some (['u', 'l', 'l'], .null)
  | 't' => some (['r', 'u', 'e'], .bool true)
  | 'f' => some (['a', 'l', 's', 'e'], .bool false)
  | _ => none

/-- The character separates tokens and means nothing else. -/
def isSpace (c : Char) : Bool :=
  c = ' ' || c = '\t' || c = '\n' || c = '\r'

/-- Take one character between two tokens. -/
def stepBetween (found : List Token) (c : Char) : Option Scan :=
  if isSpace c then some ⟨.between, found⟩
  else if c = '"' then some ⟨.string [], found⟩
  else match punctuation? c with
    | some token => some ⟨.between, token :: found⟩
    | none =>
      match NumberPart.start? c with
      | some part => some ⟨.number part [c], found⟩
      | none => (named? c).map fun name => ⟨.named name.1 name.2, found⟩

/-- Take one character. -/
def step (s : Scan) (c : Char) : Option Scan :=
  match s.mode with
  | .between => stepBetween s.found c
  | .named [] _ => none
  | .named [d] value => if c = d then some ⟨.between, .leaf value :: s.found⟩ else none
  | .named (d :: rest) value => if c = d then some ⟨.named rest value, s.found⟩ else none
  | .number part written =>
    match part.next? c with
    | some next => some ⟨.number next (c :: written), s.found⟩
    | none =>
      if part.isComplete then stepBetween (.leaf (.number written.reverse) :: s.found) c else none
  | .string written =>
    if c = '"' then some ⟨.between, .leaf (.string written.reverse) :: s.found⟩
    else if c = '\\' then some ⟨.escape (c :: written), s.found⟩
    else if c.toNat < 0x20 then none
    else some ⟨.string (c :: written), s.found⟩
  | .escape written =>
    if c = 'u' then some ⟨.unit 4 (c :: written), s.found⟩
    else if (shortEscape? c).isSome then some ⟨.string (c :: written), s.found⟩
    else none
  | .unit digits written =>
    if (hexValue? c).isNone then none
    else if digits ≤ 1 then some ⟨.string (c :: written), s.found⟩
    else some ⟨.unit (digits - 1) (c :: written), s.found⟩

/-- The tokens of a scan at the end of the text. -/
def finish (s : Scan) : Option (List Token) :=
  match s.mode with
  | .between => some s.found.reverse
  | .number part written =>
    if part.isComplete then some (.leaf (.number written.reverse) :: s.found).reverse else none
  | _ => none

end Scan

/-- The tokens of a text. -/
def tokens? (cs : List Char) : Option (List Token) :=
  (cs.foldlM Scan.step Scan.start).bind Scan.finish

end Footprint.Json

import Footprint.Json.Token
import Footprint.Text.Numeral

/-!
# JSON values

A value is built from the tokens of a text one token at a time. The machine
holds the value or the part of a member that it has just read, and a frame for
each array and object around it, so the depth of a text is not limited. Numbers
and strings are interpreted only when they are asked for.
-/

namespace Footprint

/-- A value; the names of members are kept as written. -/
inductive Json where
  /-- A value without parts. -/
  | leaf (value : Json.Leaf)
  /-- An array of items. -/
  | array (items : List Json)
  /-- An object of named members in the order of the text. -/
  | object (members : List (List Char × Json))

namespace Json

/-- An array or object around the value that is being read; parts are kept last first. -/
inductive Frame where
  /-- An array with the items before the value. -/
  | array (items : List Json)
  /-- An object with the members before the value and the name of the value. -/
  | object (members : List (List Char × Json)) (name : List Char)

/-- What a machine has just read inside the innermost frame. -/
inductive Focus where
  /-- A value must follow. -/
  | value
  /-- An array has begun: its first item or its end must follow. -/
  | arrayBegun
  /-- An object has begun: its first name or its end must follow. -/
  | objectBegun
  /-- After these members another name must follow. -/
  | name (members : List (List Char × Json))
  /-- The name of a member has been read: a colon must follow. -/
  | colon (members : List (List Char × Json)) (name : List Char)
  /-- A value is complete. -/
  | complete (value : Json)

/-- A value being built. -/
structure Machine where
  /-- What has just been read. -/
  focus : Focus
  /-- The arrays and objects around it, the innermost first. -/
  frames : List Frame

namespace Machine

/-- Nothing has been read. -/
def start : Machine := ⟨.value, []⟩

/-- Take the first token of a value. -/
def begin? (frames : List Frame) : Token → Option Machine
  | .leaf value => some ⟨.complete (.leaf value), frames⟩
  | .arrayBegin => some ⟨.arrayBegun, frames⟩
  | .objectBegin => some ⟨.objectBegun, frames⟩
  | _ => none

/-- Take the token after a complete value. -/
def continue? (value : Json) : List Frame → Token → Option Machine
  | .array items :: frames, .comma => some ⟨.value, .array (value :: items) :: frames⟩
  | .array items :: frames, .arrayEnd =>
    some ⟨.complete (.array (value :: items).reverse), frames⟩
  | .object members name :: frames, .comma => some ⟨.name ((name, value) :: members), frames⟩
  | .object members name :: frames, .objectEnd =>
    some ⟨.complete (.object ((name, value) :: members).reverse), frames⟩
  | _, _ => none

/-- Take one token. -/
def step (m : Machine) (token : Token) : Option Machine :=
  match m.focus, token with
  | .value, token => begin? m.frames token
  | .arrayBegun, .arrayEnd => some ⟨.complete (.array []), m.frames⟩
  | .arrayBegun, token => begin? (.array [] :: m.frames) token
  | .objectBegun, .objectEnd => some ⟨.complete (.object []), m.frames⟩
  | .objectBegun, .leaf (.string name) => some ⟨.colon [] name, m.frames⟩
  | .name members, .leaf (.string name) => some ⟨.colon members name, m.frames⟩
  | .colon members name, .colon => some ⟨.value, .object members name :: m.frames⟩
  | .complete value, token => continue? value m.frames token
  | _, _ => none

/-- The value that has been built, if it is complete and stands alone. -/
def finish (m : Machine) : Option Json :=
  match m.focus, m.frames with
  | .complete value, [] => some value
  | _, _ => none

end Machine

/-- The value that a list of tokens makes up. -/
def ofTokens? (tokens : List Token) : Option Json :=
  (tokens.foldlM Machine.step Machine.start).bind Machine.finish

/-- The value written by a text, with blanks around it and between its tokens. -/
def parse? (cs : List Char) : Option Json :=
  (tokens? cs).bind ofTokens?

/-- The word that a value is: a number without sign, fraction or exponent. -/
def word? : Json → Option UInt64
  | .leaf (.number written) => (Text.numeral? written).bind Word.ofNat?
  | _ => none

/-- The truth value that a value is. -/
def bool? : Json → Option Bool
  | .leaf (.bool b) => some b
  | _ => none

/-- The text that a value is. -/
def text? : Json → Option (List Char)
  | .leaf (.string written) => unescape? written
  | _ => none

/-- The members of an object under the names that their written forms stand for. -/
def members? : Json → Option (List (List Char × Json))
  | .object members => members.mapM fun member => (unescape? member.1).map (·, member.2)
  | _ => none

/-- The value of the only member of the given name. -/
def only? (name : List Char) (members : List (List Char × Json)) : Option Json :=
  match members.filter (·.1 = name) with
  | [member] => some member.2
  | _ => none

end Json

end Footprint

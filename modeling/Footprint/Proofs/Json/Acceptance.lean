import Mathlib.Data.List.Chain
import Footprint.Proofs.Json.Structure

/-!
# Only spellings are read

A scan never gives up a character: from any place in a text, what it finds up to the end is what
the text awaits there, a leaf with the rest of its characters inside a leaf and the spelled tokens
elsewhere. Two leaves without a separator between them would be scanned, but they make up no
value. So a text is read as a value exactly if it spells the tokens of the value.
-/

namespace Footprint.Json

/-- No leaf directly follows a leaf. -/
def Apart (tokens : List Token) : Prop :=
  tokens.IsChain fun token next => ∀ value after, token = .leaf value → next ≠ .leaf after

/-- The scan stands inside a leaf. -/
def ScanMode.IsInside : ScanMode → Prop
  | .between => False
  | _ => True

/-- What goes on with a leaf from inside it, up to its end. -/
inductive Completes : ScanMode → List Char → Leaf → Prop
  /-- The rest of a name. -/
  | named {rest : List Char} {value : Leaf} (hrest : rest ≠ []) :
      Completes (.named rest value) rest value
  /-- The parts of a number that follow one another. -/
  | number {part last : NumberPart} {written rest : List Char}
      (hparts : rest.foldlM NumberPart.next? part = some last) (hlast : last.isComplete = true) :
      Completes (.number part written) rest (.number (written.reverseAux rest))
  /-- What may stand in a string, and the closing quote. -/
  | string {written body : List Char} (hbody : StringBody body) :
      Completes (.string written) (body ++ ['"']) (.string (written.reverseAux body))
  /-- What may follow a backslash in a string. -/
  | escape {written body : List Char} (hbody : StringBody ('\\' :: body)) :
      Completes (.escape written) (body ++ ['"']) (.string (written.reverseAux body))
  /-- The digits of a code unit and what may follow them in a string. -/
  | unit {count : Nat} {written digits body : List Char} (hcount : digits.length = max 1 count)
      (hdigits : ∀ c ∈ digits, (hexValue? c).isSome = true) (hbody : StringBody body) :
      Completes (.unit count written) (digits ++ (body ++ ['"']))
        (.string (written.reverseAux (digits ++ body)))

/-- What a scan takes from a place in a text to its end, and the tokens that it finds there. -/
inductive Awaits : ScanMode → List Token → List Char → Prop
  /-- Between two tokens the rest of the text spells the rest of the tokens. -/
  | between {tokens : List Token} {cs : List Char} (hrest : Spells tokens cs) :
      Awaits .between tokens cs
  /-- Inside a leaf the text goes on with the leaf. -/
  | inside {mode : ScanMode} {rest cs : List Char} {value : Leaf} {tokens : List Token}
      (hvalue : Completes mode rest value) (hend : Separated cs) (hrest : Spells tokens cs) :
      Awaits mode (.leaf value :: tokens) (rest ++ cs)

/-- What follows a leaf is separated from it. -/
theorem Spells.separated {value : Leaf} {tokens : List Token} {cs : List Char}
    (h : Spells tokens cs) (hapart : Apart (.leaf value :: tokens)) : Separated cs := by
  cases h with
  | nil => exact separated_nil
  | space hc => exact separated_cons (mem_separators_of_isSpace hc) _
  | mark hc => exact separated_cons (mem_separators_of_punctuation? hc) _
  | leaf =>
    obtain ⟨hne, _⟩ := List.isChain_cons_cons.mp hapart
    exact absurd rfl (hne _ _ rfl)

namespace Awaits

variable {mode mode' : ScanMode} {c : Char} {value : Leaf} {tokens : List Token} {cs : List Char}

/-- Between two tokens the rest of the text is spelled. -/
theorem spells (h : Awaits .between tokens cs) : Spells tokens cs := by
  cases h with
  | between h => exact h
  | inside hvalue => cases hvalue

/-- A character with which a leaf begins is part of the leaf. -/
theorem spells_cons (h : Awaits mode tokens cs) (hmode : mode.IsInside)
    (hbegin : ∀ rest value, Completes mode rest value →
      value.render = c :: rest ∧ value.IsWritten) : Spells tokens (c :: cs) := by
  cases h with
  | between => exact hmode.elim
  | @inside _ rest cs value tokens hvalue hend hrest =>
    obtain ⟨hrender, hwritten⟩ := hbegin rest value hvalue
    have hspells := Spells.leaf hwritten hend hrest
    rwa [hrender] at hspells

/-- A character inside a leaf is part of the leaf. -/
theorem cons (h : Awaits mode' tokens cs) (hmode : mode'.IsInside)
    (hinside : ∀ rest value, Completes mode' rest value → Completes mode (c :: rest) value) :
    Awaits mode tokens (c :: cs) := by
  cases h with
  | between => exact hmode.elim
  | inside hvalue hend hrest => exact .inside (hinside _ _ hvalue) hend hrest

/-- The last character of a leaf ends it. -/
theorem last (h : Awaits .between tokens cs) (hapart : Apart (.leaf value :: tokens))
    (hvalue : Completes mode [c] value) : Awaits mode (.leaf value :: tokens) (c :: cs) :=
  .inside hvalue (h.spells.separated hapart) h.spells

end Awaits

namespace Completes

variable {c : Char} {written rest : List Char} {value : Leaf}

/-- A letter of a name is one that must follow. -/
theorem named_cons {letters : List Char} {named : Leaf}
    (h : Completes (.named letters named) rest value) :
    Completes (.named (c :: letters) named) (c :: rest) value := by
  cases h with
  | named => exact .named (List.cons_ne_nil c rest)

/-- A number goes on with its next character. -/
theorem number_cons {part next : NumberPart} (hnext : part.next? c = some next)
    (h : Completes (.number next (c :: written)) rest value) :
    Completes (.number part written) (c :: rest) value := by
  cases h with
  | @number _ last _ rest hparts hlast =>
    have hall : (c :: rest).foldlM NumberPart.next? part = some last := by
      rw [List.foldlM_cons, hnext]
      exact hparts
    exact .number hall hlast

/-- A number may end where it is complete. -/
theorem number_nil {part : NumberPart} (hlast : part.isComplete = true) :
    Completes (.number part written) [] (.number written.reverse) :=
  .number rfl hlast

/-- A string goes on with a character that stands for itself. -/
theorem string_plain (hquote : c ≠ '"') (hbackslash : c ≠ '\\') (hcontrol : 0x20 ≤ c.toNat)
    (h : Completes (.string (c :: written)) rest value) :
    Completes (.string written) (c :: rest) value := by
  cases h with
  | string hbody => exact .string (.plain hquote hbackslash hcontrol hbody)

/-- A string goes on with a backslash. -/
theorem string_backslash (h : Completes (.escape ('\\' :: written)) rest value) :
    Completes (.string written) ('\\' :: rest) value := by
  cases h with
  | escape hbody => exact .string hbody

/-- A letter after a backslash ends the escape. -/
theorem escape_letter (hletter : (shortEscape? c).isSome = true)
    (h : Completes (.string (c :: written)) rest value) :
    Completes (.escape written) (c :: rest) value := by
  cases h with
  | string hbody => exact .escape (.short hletter hbody)

/-- A code unit has four digits. -/
theorem escape_unit (h : Completes (.unit 4 ('u' :: written)) rest value) :
    Completes (.escape written) ('u' :: rest) value := by
  cases h with
  | @unit _ _ digits body hcount hdigits hbody =>
    obtain ⟨a, b, c, d, rfl⟩ := List.length_eq_four.mp hcount
    simp only [List.forall_mem_cons] at hdigits
    obtain ⟨ha, hb, hc, hd, _⟩ := hdigits
    rw [← List.append_assoc]
    exact .escape (.unit ha hb hc hd hbody)

/-- The last digit of a code unit ends it. -/
theorem unit_last {count : Nat} (hcount : count ≤ 1) (hdigit : (hexValue? c).isSome = true)
    (h : Completes (.string (c :: written)) rest value) :
    Completes (.unit count written) (c :: rest) value := by
  have hlength : [c].length = max 1 count := by rw [List.length_singleton, Nat.max_eq_left hcount]
  cases h with
  | string hbody => exact .unit hlength (List.forall_mem_singleton.mpr hdigit) hbody

/-- A code unit goes on with the next of its digits. -/
theorem unit_cons {count : Nat} (hcount : ¬ count ≤ 1) (hdigit : (hexValue? c).isSome = true)
    (h : Completes (.unit (count - 1) (c :: written)) rest value) :
    Completes (.unit count written) (c :: rest) value := by
  cases h with
  | @unit _ _ digits body hlength hdigits hbody =>
    have hmore : (c :: digits).length = max 1 count := by
      rw [List.length_cons, hlength]
      omega
    exact .unit hmore (List.forall_mem_cons.mpr ⟨hdigit, hdigits⟩) hbody

end Completes

namespace Scan

/-- A leaf that is named begins with its first letter. -/
theorem render_of_named? {c : Char} {name : List Char × Leaf} (h : named? c = some name) :
    name.2.render = c :: name.1 ∧ name.2.IsWritten := by
  unfold named? at h
  split at h
  case h_4 => cases h
  all_goals
    cases h
    exact ⟨rfl, trivial⟩

/-- Taking the character leads from one place in a text to another: what is found on the way and
awaited at the second is awaited at the first. -/
def Carries (s : Scan) (c : Char) (s' : Scan) : Prop :=
  ∃ new, s'.found = new ++ s.found ∧ ∀ tokens cs, Apart (new.reverse ++ tokens) →
    Awaits s'.mode tokens cs → Awaits s.mode (new.reverse ++ tokens) (c :: cs)

/-- No token is found on the way from one place inside a leaf to another. -/
theorem Carries.inside {mode mode' : ScanMode} {c : Char} (found : List Token)
    (hmode : mode'.IsInside)
    (h : ∀ rest value, Completes mode' rest value → Completes mode (c :: rest) value) :
    Carries ⟨mode, found⟩ c ⟨mode', found⟩ :=
  ⟨[], rfl, fun _ _ _ hrest => hrest.cons hmode h⟩

/-- A leaf is found with its last character. -/
theorem Carries.last {mode : ScanMode} {c : Char} (found : List Token) {value : Leaf}
    (h : Completes mode [c] value) :
    Carries ⟨mode, found⟩ c ⟨.between, .leaf value :: found⟩ :=
  ⟨[.leaf value], rfl, fun _ _ hapart hrest => hrest.last hapart h⟩

/-- What is found from between two tokens on is spelled by the text from there on. -/
theorem spells_of_stepBetween {found : List Token} {c : Char} {s : Scan}
    (h : stepBetween found c = some s) :
    ∃ new, s.found = new ++ found ∧ ∀ tokens cs, Awaits s.mode tokens cs →
      Spells (new.reverse ++ tokens) (c :: cs) := by
  unfold stepBetween at h
  split at h
  case isTrue hspace =>
    cases h
    exact ⟨[], rfl, fun _ _ hrest => .space hspace hrest.spells⟩
  split at h
  case isTrue hquote =>
    cases h
    cases hquote
    refine ⟨[], rfl, fun tokens cs hrest => hrest.spells_cons trivial fun rest value hvalue => ?_⟩
    cases hvalue with
    | string hbody => exact ⟨rfl, hbody⟩
  split at h
  case h_1 token hmark =>
    cases h
    exact ⟨[token], rfl, fun _ _ hrest => .mark hmark hrest.spells⟩
  split at h
  case h_1 part hstart =>
    cases h
    refine ⟨[], rfl, fun tokens cs hrest => hrest.spells_cons trivial fun rest value hvalue => ?_⟩
    cases hvalue with
    | number hparts hlast => exact ⟨rfl, _, _, hstart, hparts, hlast⟩
  case h_2 =>
    obtain ⟨name, hname, hmode⟩ := Option.map_eq_some_iff.mp h
    cases hmode
    refine ⟨[], rfl, fun tokens cs hrest => hrest.spells_cons trivial fun rest value hvalue => ?_⟩
    cases hvalue with
    | named => exact render_of_named? hname

/-- Every step of a scan leads from one place in the text to another. -/
theorem carries_of_step {s s' : Scan} {c : Char} (h : s.step c = some s') : s.Carries c s' := by
  obtain ⟨mode, found⟩ := s
  cases mode with
  | between =>
    obtain ⟨new, hfound, hspells⟩ := spells_of_stepBetween h
    exact ⟨new, hfound, fun tokens cs _ hrest => .between (hspells tokens cs hrest)⟩
  | named rest value =>
    rcases rest with _ | ⟨d, _ | ⟨e, rest⟩⟩
    · cases h
    · obtain ⟨rfl, hstep⟩ := Option.ite_none_right_eq_some.mp h
      cases hstep
      exact .last found (.named (List.cons_ne_nil c []))
    · obtain ⟨rfl, hstep⟩ := Option.ite_none_right_eq_some.mp h
      cases hstep
      exact .inside found trivial fun _ _ => .named_cons
  | number part written =>
    simp only [step] at h
    split at h
    · rename_i next hnext
      cases h
      exact .inside found trivial fun _ _ => .number_cons hnext
    · -- the number has ended before this character
      obtain ⟨hlast, hstep⟩ := Option.ite_none_right_eq_some.mp h
      obtain ⟨new, hfound, hspells⟩ := spells_of_stepBetween hstep
      refine ⟨new ++ [.leaf (.number written.reverse)], ?_, fun tokens cs hapart hrest => ?_⟩
      · rw [hfound, List.append_assoc, List.singleton_append]
      · rw [List.reverse_concat, List.cons_append] at hapart ⊢
        have hspelled := hspells tokens cs hrest
        exact .inside (.number_nil hlast) (hspelled.separated hapart) hspelled
  | string written =>
    simp only [step] at h
    split at h
    · rename_i hquote
      cases h
      cases hquote
      exact .last found (.string .nil)
    · rename_i hquote
      split at h
      · rename_i hbackslash
        cases h
        cases hbackslash
        exact .inside found trivial fun _ _ => .string_backslash
      · rename_i hbackslash
        obtain ⟨hcontrol, hstep⟩ := Option.ite_none_left_eq_some.mp h
        cases hstep
        exact .inside found trivial fun _ _ =>
          .string_plain hquote hbackslash (Nat.le_of_not_lt hcontrol)
  | escape written =>
    simp only [step] at h
    split at h
    · rename_i hu
      cases h
      cases hu
      exact .inside found trivial fun _ _ => .escape_unit
    · obtain ⟨hletter, hstep⟩ := Option.ite_none_right_eq_some.mp h
      cases hstep
      exact .inside found trivial fun _ _ => .escape_letter hletter
  | unit digits written =>
    simp only [step] at h
    obtain ⟨hdigit, hstep⟩ := Option.ite_none_left_eq_some.mp h
    rw [Option.isNone_iff_eq_none, ← ne_eq, ← Option.isSome_iff_ne_none] at hdigit
    split at hstep
    · rename_i hlast
      cases hstep
      exact .inside found trivial fun _ _ => .unit_last hlast hdigit
    · rename_i hmore
      cases hstep
      exact .inside found trivial fun _ _ => .unit_cons hmore hdigit

/-- The tokens found from a place in a text to its end are those that the text awaits there. -/
theorem awaits_of_finish {s : Scan} {tokens : List Token} {cs : List Char}
    (h : (cs.foldlM step s).bind finish = some tokens) :
    ∃ new, tokens = s.found.reverse ++ new ∧ (Apart new → Awaits s.mode new cs) := by
  induction cs generalizing s with
  | nil =>
    obtain ⟨mode, found⟩ := s
    change finish ⟨mode, found⟩ = some tokens at h
    cases mode with
    | between =>
      cases h
      exact ⟨[], (List.append_nil _).symm, fun _ => .between .nil⟩
    | number part written =>
      obtain ⟨hlast, htokens⟩ := Option.ite_none_right_eq_some.mp h
      cases htokens
      refine ⟨[.leaf (.number written.reverse)], List.reverse_cons, fun _ => ?_⟩
      exact .inside (.number_nil hlast) separated_nil .nil
    | named | string | escape | unit => cases h
  | cons c cs ih =>
    rw [List.foldlM_cons] at h
    cases hstep : s.step c with
    | none =>
      rw [hstep] at h
      cases h
    | some next =>
      obtain ⟨new, hfound, hcarries⟩ := carries_of_step hstep
      rw [hstep] at h
      obtain ⟨later, htokens, hlater⟩ := ih h
      refine ⟨new.reverse ++ later, ?_, fun hapart => ?_⟩
      · rw [htokens, hfound, List.reverse_append, List.append_assoc]
      · exact hcarries later cs hapart (hlater hapart.right_of_append)

end Scan

/-- A machine takes no leaf directly after a leaf. -/
theorem apart_of_foldlM {m m' : Machine} {tokens : List Token}
    (h : tokens.foldlM Machine.step m = some m') : Apart tokens := by
  induction tokens generalizing m with
  | nil => exact .nil
  | cons token tokens ih =>
    rw [List.foldlM_cons] at h
    obtain ⟨next, hnext, hrest⟩ := Option.bind_eq_some_iff.mp h
    refine List.isChain_cons.mpr ⟨?_, ih hrest⟩
    rintro _ hhead value after rfl rfl
    obtain ⟨tail, rfl⟩ := List.head?_eq_some_iff.mp hhead
    rw [List.foldlM_cons, Machine.step_leaf_leaf hnext after] at hrest
    cases hrest

/-- A text is read as a value exactly if it spells the tokens of the value. -/
theorem parse?_eq_some_iff {cs : List Char} {j : Json} :
    parse? cs = some j ↔ Spells j.tokens cs := by
  refine ⟨fun h => ?_, parse?_of_spells⟩
  obtain ⟨tokens, htokens, hvalue⟩ := Option.bind_eq_some_iff.mp h
  obtain ⟨m, hrun, _⟩ := Option.bind_eq_some_iff.mp hvalue
  obtain ⟨_, rfl, hawaits⟩ := Scan.awaits_of_finish htokens
  rw [← ofTokens?_eq_some_iff.mp hvalue]
  exact (hawaits (apart_of_foldlM hrun)).spells

end Footprint.Json

import Footprint.Json.Record
import Footprint.Proofs.Json.Escape

/-!
# Texts that spell tokens

A text spells a list of tokens if it holds them in order, with any blanks before, between and
after them, and with a blank, a punctuation mark or the end of the text directly after every
leaf. Scanning such a text finds the tokens that it spells: a leaf is taken from its first
character to its last, whatever it is, and what follows it cannot belong to it.
-/

namespace Footprint.Json

/-- A number as the grammar asks for it: a first character and parts that follow one another. -/
def IsNumber : List Char → Prop
  | [] => False
  | c :: rest => ∃ first last, NumberPart.start? c = some first ∧
      rest.foldlM NumberPart.next? first = some last ∧ last.isComplete = true

/-- The text of the leaf is one that can be read. -/
def Leaf.IsWritten : Leaf → Prop
  | .null => True
  | .bool _ => True
  | .number written => IsNumber written
  | .string written => StringBody written

/-- The blanks and the punctuation marks. -/
def separators : List Char :=
  [' ', '\t', '\n', '\r', '[', ']', '{', '}', ':', ',']

/-- The text ends, or goes on with a blank or a punctuation mark. -/
def Separated (cs : List Char) : Prop :=
  ∀ c ∈ cs.head?, c ∈ separators

/-- The text holds exactly these tokens. -/
inductive Spells : List Token → List Char → Prop
  /-- The empty text holds no token. -/
  | nil : Spells [] []
  /-- Blanks hold no token. -/
  | space {c : Char} {tokens : List Token} {cs : List Char} (hc : Scan.isSpace c = true)
      (hrest : Spells tokens cs) : Spells tokens (c :: cs)
  /-- A punctuation mark is a token. -/
  | mark {token : Token} {c : Char} {tokens : List Token} {cs : List Char}
      (hc : Scan.punctuation? c = some token) (hrest : Spells tokens cs) :
      Spells (token :: tokens) (c :: cs)
  /-- A leaf is a token if nothing follows that could belong to it. -/
  | leaf {value : Leaf} {tokens : List Token} {cs : List Char} (hvalue : value.IsWritten)
      (hend : Separated cs) (hrest : Spells tokens cs) :
      Spells (.leaf value :: tokens) (value.render ++ cs)

theorem mem_separators_of_isSpace {c : Char} (h : Scan.isSpace c = true) : c ∈ separators := by
  simp only [Scan.isSpace, Bool.or_eq_true, decide_eq_true_eq] at h
  rcases h with ((rfl | rfl) | rfl) | rfl <;> decide

theorem mem_separators_of_punctuation? {c : Char} {token : Token}
    (h : Scan.punctuation? c = some token) : c ∈ separators := by
  unfold Scan.punctuation? at h
  split at h
  any_goals decide
  cases h

/-- Nothing can belong to a leaf at the end of a text. -/
theorem separated_nil : Separated [] := nofun

/-- Nothing can belong to a leaf across a separator. -/
theorem separated_cons {c : Char} (h : c ∈ separators) (cs : List Char) :
    Separated (c :: cs) := by
  rintro _ ⟨⟩
  exact h

/-- Blanks in front of a text make no token. -/
theorem Spells.spaces {tokens : List Token} {cs blanks : List Char} (h : Spells tokens cs)
    (hblanks : ∀ c ∈ blanks, Scan.isSpace c = true) : Spells tokens (blanks ++ cs) := by
  induction blanks with
  | nil => exact h
  | cons c blanks ih =>
    obtain ⟨hc, hrest⟩ := List.forall_mem_cons.mp hblanks
    exact .space hc (ih hrest)

/-- Blanks at the end of a text make no token. -/
theorem Spells.append_spaces {tokens : List Token} {cs blanks : List Char}
    (h : Spells tokens cs) (hblanks : ∀ c ∈ blanks, Scan.isSpace c = true) :
    Spells tokens (cs ++ blanks) := by
  induction h with
  | nil =>
    have hspells := Spells.nil.spaces hblanks
    rwa [List.append_nil] at hspells
  | space hc _ ih => exact .space hc ih
  | mark hc _ ih => exact .mark hc ih
  | @leaf value tokens cs hvalue hend _ ih =>
    rw [List.append_assoc]
    refine .leaf hvalue ?_ ih
    intro c hc
    -- a leaf at the end of the text may now be followed by the first blank
    cases cs with
    | nil => exact mem_separators_of_isSpace (hblanks c (List.mem_of_mem_head? hc))
    | cons d cs => exact hend c hc

/-- The leaves that a text spells are ones that can be read. -/
theorem Spells.isWritten_of_mem {tokens : List Token} {cs : List Char} (h : Spells tokens cs)
    {value : Leaf} (hvalue : .leaf value ∈ tokens) : value.IsWritten := by
  induction h with
  | nil => cases hvalue
  | space _ _ ih => exact ih hvalue
  | @mark token c _ _ hc _ ih =>
    rcases List.mem_cons.mp hvalue with rfl | hvalue
    · unfold Scan.punctuation? at hc
      split at hc <;> cases hc
    · exact ih hvalue
  | leaf hwritten _ _ ih =>
    rcases List.mem_cons.mp hvalue with hvalue | hvalue
    · cases hvalue
      exact hwritten
    · exact ih hvalue

namespace NumberPart

/-- No number begins with a separator. -/
theorem start?_separator {c : Char} (h : c ∈ separators) : start? c = none := by
  have hall : separators.all (fun c => (start? c).isNone) = true := rfl
  exact Option.isNone_iff_eq_none.mp (List.all_eq_true.mp hall c h)

/-- No number goes on with a separator. -/
theorem next?_separator {c : Char} (h : c ∈ separators) (part : NumberPart) :
    part.next? c = none := by
  have hall : separators.all (fun c => (part.next? c).isNone) = true := by cases part <;> rfl
  exact Option.isNone_iff_eq_none.mp (List.all_eq_true.mp hall c h)

/-- A digit goes on with a whole part. -/
theorem foldlM_next?_whole {digits : List Char} (h : ∀ c ∈ digits, c.isDigit = true) :
    digits.foldlM next? whole = some whole := by
  induction digits with
  | nil => rfl
  | cons c digits ih =>
    obtain ⟨hc, hrest⟩ := List.forall_mem_cons.mp h
    have hstep : next? whole c = some whole := by rw [next?, if_pos hc]
    rw [List.foldlM_cons, hstep]
    exact ih hrest

end NumberPart

/-- The decimal form of a positive number does not begin with a zero. -/
theorem head_toDigits_ne_zero {n : Nat} (h : 0 < n) :
    (Nat.toDigits 10 n).head? ≠ some '0' := by
  induction n using Nat.strongRecOn with
  | ind n ih =>
    by_cases hlt : n < 10
    · rw [Nat.toDigits_of_lt_base hlt]
      have hall : ∀ d < 10, 0 < d → [Nat.digitChar d].head? ≠ some '0' := by decide
      exact hall n hlt h
    · have hhigh := ih (n / 10) (by omega) (by omega)
      rw [Nat.toDigits_of_base_le (by decide) (by omega)]
      cases hform : Nat.toDigits 10 (n / 10) with
      | nil => exact absurd hform Nat.toDigits_ne_nil
      | cons c rest =>
        rw [hform] at hhigh
        exact hhigh

/-- The decimal form of a number is a number. -/
theorem isNumber_toDigits (n : Nat) : IsNumber (Nat.toDigits 10 n) := by
  have hdigits : ∀ c ∈ Nat.toDigits 10 n, c.isDigit = true := fun _ =>
    Text.isDigit_of_mem_decimal
  cases hform : Nat.toDigits 10 n with
  | nil => exact absurd hform Nat.toDigits_ne_nil
  | cons c rest =>
    rw [hform] at hdigits
    obtain ⟨hc, hrest⟩ := List.forall_mem_cons.mp hdigits
    by_cases hzero : c = '0'
    · have hn : n = 0 := by
        apply Nat.eq_zero_of_not_pos
        intro hpos
        apply head_toDigits_ne_zero hpos
        rw [hform, hzero, List.head?_cons]
      rw [hn, Nat.toDigits_zero] at hform
      cases hform
      exact ⟨.zero, .zero, rfl, rfl, rfl⟩
    · have hminus : c ≠ '-' := by
        rintro rfl
        cases hc
      have hstart : NumberPart.start? c = some .whole := by
        rw [NumberPart.start?, if_neg hminus, if_neg hzero, if_pos hc]
      exact ⟨.whole, .whole, hstart, NumberPart.foldlM_next?_whole hrest, rfl⟩

/-- A digit is the one that is written for its value. -/
theorem digitChar_of_isDigit {c : Char} (h : c.isDigit = true) :
    ∃ d < 10, c = Nat.digitChar d := by
  simp only [Char.isDigit, Bool.and_eq_true, decide_eq_true_eq, ge_iff_le,
    UInt32.le_iff_toNat_le] at h
  have hbounds : 48 ≤ c.toNat ∧ c.toNat ≤ 57 := h
  have hlt : c.toNat - 48 < 10 := by omega
  refine ⟨c.toNat - 48, hlt, Char.toNat_inj.mp ?_⟩
  rw [Nat.toNat_digitChar_of_lt_ten hlt]
  omega

/-- Digits after the decimal form of a positive number are a decimal form. -/
theorem toDigits_ofDigitChars {digits : List Char} (h : ∀ c ∈ digits, c.isDigit = true) {n : Nat}
    (hn : 0 < n) :
    Nat.toDigits 10 (Nat.ofDigitChars 10 digits n) = Nat.toDigits 10 n ++ digits := by
  induction digits generalizing n with
  | nil => rw [Nat.ofDigitChars_nil, List.append_nil]
  | cons c digits ih =>
    obtain ⟨hc, hrest⟩ := List.forall_mem_cons.mp h
    obtain ⟨d, hd, rfl⟩ := digitChar_of_isDigit hc
    rw [Nat.ofDigitChars_cons_digitChar_of_lt_ten hd, ih hrest (by omega),
      ← Nat.toDigits_append_toDigits (by decide) hn hd, Nat.toDigits_of_lt_base hd,
      List.append_assoc, List.singleton_append]

/-- A number of digits only is the decimal form of its value. -/
theorem eq_toDigits_of_numeral? {written : List Char} {n : Nat} (h : IsNumber written)
    (hn : Text.numeral? written = some n) : written = Nat.toDigits 10 n := by
  obtain ⟨⟨_, hall⟩, hvalue⟩ := Option.ite_none_right_eq_some.mp hn
  cases hvalue
  cases written with
  | nil => exact h.elim
  | cons c rest =>
    obtain ⟨hc, hrest⟩ := List.forall_mem_cons.mp (List.all_eq_true.mp hall)
    obtain ⟨d, hd, rfl⟩ := digitChar_of_isDigit hc
    rw [Nat.ofDigitChars_cons_digitChar_of_lt_ten hd, Nat.mul_zero, Nat.zero_add]
    by_cases hzero : d = 0
    · -- no digit may follow a leading zero
      subst hzero
      obtain ⟨first, last, hstart, hparts, _⟩ := h
      cases hstart
      cases rest with
      | nil => rfl
      | cons c rest =>
        obtain ⟨hdigit, _⟩ := List.forall_mem_cons.mp hrest
        obtain ⟨e, he, rfl⟩ := digitChar_of_isDigit hdigit
        rw [List.foldlM_cons] at hparts
        have hnone : ∀ e < 10, NumberPart.zero.next? (Nat.digitChar e) = none := by decide
        rw [hnone e he] at hparts
        cases hparts
    · rw [toDigits_ofDigitChars hrest (Nat.pos_of_ne_zero hzero), Nat.toDigits_of_lt_base hd]
      rfl

namespace Scan

variable {found : List Token} {cs : List Char}

/-- A blank between two tokens is passed over. -/
theorem step_space {c : Char} (h : isSpace c = true) :
    step ⟨.between, found⟩ c = some ⟨.between, found⟩ := by
  rw [step, stepBetween, if_pos h]

/-- A punctuation mark between two tokens is a token. -/
theorem step_mark {c : Char} {token : Token} (h : punctuation? c = some token) :
    step ⟨.between, found⟩ c = some ⟨.between, token :: found⟩ := by
  unfold punctuation? at h
  split at h
  all_goals
    cases h
    try rfl

/-- The first character of a number begins a number. -/
theorem step_start {c : Char} {part : NumberPart} (h : NumberPart.start? c = some part) :
    step ⟨.between, found⟩ c = some ⟨.number part [c], found⟩ := by
  have hseparator : c ∉ separators := by
    intro hc
    rw [NumberPart.start?_separator hc] at h
    cases h
  have hspace : isSpace c = false :=
    Bool.eq_false_iff.mpr fun hc => hseparator (mem_separators_of_isSpace hc)
  have hquote : c ≠ '"' := by
    rintro rfl
    cases h
  have hmark : punctuation? c = none :=
    Option.eq_none_iff_forall_ne_some.mpr fun token hc =>
      hseparator (mem_separators_of_punctuation? hc)
  simp only [step, stepBetween, hspace, Bool.false_eq_true, if_false, if_neg hquote, hmark, h]

/-- The characters of a number are collected. -/
theorem foldlM_step_number {digits : List Char} {part last : NumberPart}
    (h : digits.foldlM NumberPart.next? part = some last) (written : List Char) :
    digits.foldlM step ⟨.number part written, found⟩ =
      some ⟨.number last (digits.reverse ++ written), found⟩ := by
  induction digits generalizing part written with
  | nil =>
    cases h
    rfl
  | cons c digits ih =>
    rw [List.foldlM_cons] at h
    obtain ⟨next, hnext, hrest⟩ := Option.bind_eq_some_iff.mp h
    have hstep : step ⟨.number part written, found⟩ c =
        some ⟨.number next (c :: written), found⟩ := by
      simp only [step, hnext]
    rw [List.foldlM_cons, hstep, List.reverse_cons, List.append_assoc]
    exact ih hrest (c :: written)

/-- A complete number ends where nothing follows that could belong to it. -/
theorem finish_number {part : NumberPart} (h : part.isComplete = true) (hend : Separated cs)
    (written : List Char) :
    (cs.foldlM step ⟨.number part written, found⟩).bind finish =
      (cs.foldlM step ⟨.between, .leaf (.number written.reverse) :: found⟩).bind finish := by
  cases cs with
  | nil => simp only [List.foldlM_nil, Option.pure_def, Option.bind_some, finish, h, if_true]
  | cons c cs =>
    -- a separator cannot go on with the number, so it is taken as it is between two tokens
    have hnext := NumberPart.next?_separator (hend c rfl) part
    have hstep : step ⟨.number part written, found⟩ c =
        step ⟨.between, .leaf (.number written.reverse) :: found⟩ c := by
      simp only [step, hnext, h, if_true]
    rw [List.foldlM_cons, List.foldlM_cons, hstep]

/-- A character that stands for itself is collected. -/
theorem step_plain {c : Char} (hquote : c ≠ '"') (hbackslash : c ≠ '\\')
    (hcontrol : 0x20 ≤ c.toNat) (written : List Char) :
    step ⟨.string written, found⟩ c = some ⟨.string (c :: written), found⟩ := by
  simp only [step, if_neg hquote, if_neg hbackslash, if_neg (Nat.not_lt.mpr hcontrol)]

/-- A letter after a backslash ends the escape. -/
theorem step_letter {c : Char} (h : (shortEscape? c).isSome = true) (written : List Char) :
    step ⟨.escape written, found⟩ c = some ⟨.string (c :: written), found⟩ := by
  have hu : c ≠ 'u' := by
    rintro rfl
    cases h
  simp only [step, if_neg hu, h, if_true]

/-- A digit of a code unit is collected, and the last one ends the escape. -/
theorem step_digit {c : Char} (h : (hexValue? c).isSome = true) (digits : Nat)
    (written : List Char) :
    step ⟨.unit (digits + 1) written, found⟩ c =
      some (if digits = 0 then ⟨.string (c :: written), found⟩
        else ⟨.unit digits (c :: written), found⟩) := by
  have hsome : (hexValue? c).isNone = false := by
    rw [← Option.not_isSome, h, Bool.not_true]
  cases digits with
  | zero =>
    simp only [step, hsome, Nat.zero_add, Nat.le_refl, Bool.false_eq_true, if_true, if_false]
  | succ n =>
    have hmore : ¬ n + 1 + 1 ≤ 1 := by omega
    simp only [step, hsome, if_neg hmore, if_neg (Nat.succ_ne_zero n), Bool.false_eq_true,
      if_false, Nat.add_sub_cancel]

/-- What stands between quotes is collected up to the closing quote. -/
theorem foldlM_step_string {body : List Char} (h : StringBody body) (written cs : List Char) :
    (body ++ '"' :: cs).foldlM step ⟨.string written, found⟩ =
      cs.foldlM step ⟨.between, .leaf (.string (written.reverse ++ body)) :: found⟩ := by
  induction h generalizing written with
  | nil =>
    rw [List.append_nil]
    rfl
  | @plain c rest hquote hbackslash hcontrol _ ih =>
    have hrest := ih (c :: written)
    rw [List.reverse_cons, List.append_assoc] at hrest
    rw [List.cons_append, List.foldlM_cons, step_plain hquote hbackslash hcontrol]
    exact hrest
  | @short c rest hletter _ ih =>
    have hrest := ih (c :: '\\' :: written)
    simp only [List.reverse_cons, List.append_assoc, List.cons_append, List.nil_append] at hrest
    rw [← hrest]
    change (step ⟨.escape ('\\' :: written), found⟩ c >>= _) = _
    rw [step_letter hletter]
    rfl
  | @unit a b c d rest ha hb hc hd _ ih =>
    have hrest := ih (d :: c :: b :: a :: 'u' :: '\\' :: written)
    simp only [List.reverse_cons, List.append_assoc, List.cons_append, List.nil_append] at hrest
    rw [← hrest]
    change (step ⟨.unit 4 ('u' :: '\\' :: written), found⟩ a >>= _) = _
    rw [step_digit ha]
    change (step ⟨.unit 3 (a :: 'u' :: '\\' :: written), found⟩ b >>= _) = _
    rw [step_digit hb]
    change (step ⟨.unit 2 (b :: a :: 'u' :: '\\' :: written), found⟩ c >>= _) = _
    rw [step_digit hc]
    change (step ⟨.unit 1 (c :: b :: a :: 'u' :: '\\' :: written), found⟩ d >>= _) = _
    rw [step_digit hd]
    rfl

/-- A leaf is found as a token if nothing follows that could belong to it. -/
theorem finish_leaf {value : Leaf} (h : value.IsWritten) (hend : Separated cs) :
    ((value.render ++ cs).foldlM step ⟨.between, found⟩).bind finish =
      (cs.foldlM step ⟨.between, .leaf value :: found⟩).bind finish := by
  cases value with
  | null => rfl
  | bool b => cases b <;> rfl
  | string written =>
    have hstring : (written ++ '"' :: cs).foldlM step ⟨.string [], found⟩ = _ :=
      foldlM_step_string h [] cs
    have hrender : (Leaf.string written).render ++ cs = '"' :: (written ++ '"' :: cs) := by
      rw [Leaf.render, List.cons_append, List.append_assoc, List.singleton_append]
    rw [hrender]
    exact congrArg (Option.bind · finish) hstring
  | number written =>
    cases written with
    | nil => exact h.elim
    | cons c rest =>
      obtain ⟨first, last, hstart, hparts, hlast⟩ := h
      have hcollect : rest.foldlM step ⟨.number first [c], found⟩ = _ :=
        foldlM_step_number hparts [c]
      have hfinish : (cs.foldlM step ⟨.number last (rest.reverse ++ [c]), found⟩).bind finish = _ :=
        finish_number hlast hend _
      rw [List.reverse_append, List.reverse_reverse, List.reverse_singleton,
        List.singleton_append] at hfinish
      rw [Leaf.render, List.cons_append, List.foldlM_cons, step_start hstart, ← hfinish]
      change Option.bind (List.foldlM _ _ _) _ = _
      rw [List.foldlM_append, hcollect]
      rfl

end Scan

/-- Scanning a text from between two tokens finds the tokens that it spells. -/
theorem finish_of_spells {tokens : List Token} {cs : List Char} (h : Spells tokens cs)
    (found : List Token) :
    (cs.foldlM Scan.step ⟨.between, found⟩).bind Scan.finish =
      some (found.reverse ++ tokens) := by
  induction h generalizing found with
  | nil =>
    rw [List.append_nil]
    rfl
  | space hc _ ih =>
    rw [List.foldlM_cons, Scan.step_space hc]
    exact ih found
  | @mark token c tokens cs hc _ ih =>
    rw [List.foldlM_cons, Scan.step_mark hc]
    refine (ih (token :: found)).trans ?_
    rw [List.reverse_cons, List.append_assoc, List.singleton_append]
  | @leaf value tokens cs hvalue hend _ ih =>
    rw [Scan.finish_leaf hvalue hend, ih, List.reverse_cons, List.append_assoc,
      List.singleton_append]

/-- The tokens of a text are those that it spells. -/
theorem tokens?_of_spells {tokens : List Token} {cs : List Char} (h : Spells tokens cs) :
    tokens? cs = some tokens :=
  finish_of_spells h []

end Footprint.Json

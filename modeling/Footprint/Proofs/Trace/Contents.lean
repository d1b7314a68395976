import Footprint.Proofs.Trace.Lines

/-!
# The lines of bytes

Any bytes are some terminated lines and a rest without a line feed, and the lines of a
content are cut from them in that way. So the lines of two contents, the first of which
ends with a line feed, are the lines of the first and then those of the second. Whether
a line is text does not depend on the line feed and the carriage returns at its end.
-/

namespace Footprint.Content

open Text

/-- Bytes are the characters of a text, or they are no text at all. -/
theorem decode_cases (bytes : List UInt8) :
    (∃ cs, bytes = encode cs ∧ decode bytes = .ok (String.ofList cs)) ∨
      (∀ cs, bytes ≠ encode cs) ∧ decode bytes = .error .notText := by
  cases hd : decode bytes with
  | ok text =>
    refine Or.inl ⟨text.toList, ?_, by rw [String.ofList_toList]⟩
    rw [← List.toByteArray_inj, ← decode_eq_ok_iff.mp hd, ← String.utf8Encode_toList]
    rfl
  | error e =>
    refine Or.inr ⟨?_, ?_⟩
    · rintro cs rfl
      rw [decode_encode] at hd
      cases hd
    · unfold decode at hd
      split at hd
      · cases hd
      · exact hd.symm

/-- Bytes are no text exactly if they are not valid UTF-8. -/
theorem decode_eq_notText_iff {bytes : List UInt8} :
    decode bytes = .error .notText ↔ ¬ bytes.toByteArray.IsValidUTF8 := by
  obtain ⟨cs, rfl, hd⟩ | ⟨hne, hd⟩ := decode_cases bytes
  · rw [hd]
    exact iff_of_false nofun (not_not_intro ⟨cs, rfl⟩)
  · refine iff_of_true hd ?_
    rintro ⟨cs, hcs⟩
    exact hne cs (List.toByteArray_inj.mp hcs)

/-- A character of one byte at the end of some bytes is a character at the end of their text. -/
theorem decode_concat {b : UInt8} {c : Char} (hb : b.toNat < 128)
    (hc : String.utf8EncodeChar c = [b]) (bytes : List UInt8) :
    decode (bytes ++ [b]) = (decode bytes).map (String.push · c) := by
  have hone : encode [c] = [b] := by rw [encode_cons, hc, encode_nil, List.append_nil]
  obtain ⟨cs, rfl, hd⟩ | ⟨hne, hd⟩ := decode_cases bytes
  · have hpush : String.ofList (cs ++ [c]) = (String.ofList cs).push c := by
      rw [← String.toList_inj, String.toList_push, String.toList_ofList, String.toList_ofList]
    rw [hd, ← hone, ← encode_append, decode_encode, hpush]
    rfl
  · obtain ⟨cs, hcs, _⟩ | ⟨_, hd'⟩ := decode_cases (bytes ++ [b])
    · -- the last character is the one of the last byte, so the bytes before it were text
      exfalso
      rcases List.eq_nil_or_concat cs with rfl | ⟨cs, d, rfl⟩
      · exact List.append_ne_nil_of_right_ne_nil bytes (List.cons_ne_nil b []) hcs
      · rw [List.concat_eq_append, encode_append, encode_cons, encode_nil, List.append_nil] at hcs
        have hlast : (String.utf8EncodeChar d).getLast? = some b := by
          rw [← getLast?_append_utf8EncodeChar (encode cs), ← hcs, List.getLast?_concat]
        have hmem : b ∈ String.utf8EncodeChar c := by rw [hc]; exact List.mem_singleton_self b
        have hsame : d = c := Char.toNat_inj.mp
          ((toNat_eq_of_mem_utf8EncodeChar hb (List.mem_of_getLast? hlast)).trans
            (toNat_eq_of_mem_utf8EncodeChar hb hmem).symm)
        rw [hsame, hc] at hcs
        exact hne cs (List.append_inj_left' hcs rfl)
    · rw [hd, hd']
      rfl

/-- Nothing after the last line feed is no line. -/
@[simp] theorem lastLine_nil : lastLine [] none = [] := rfl

/-- What holds no line feed is only a last line. -/
theorem lines_of_notMem {bytes : List UInt8} (h : 10 ∉ bytes) (failure : Option String) :
    lines ⟨bytes, failure⟩ = lastLine bytes failure := by
  rw [lines, fields_of_notMem h]
  rfl

/-- A line feed ends the first line. -/
theorem lines_append_lineFeed {bytes : List UInt8} (h : 10 ∉ bytes) (rest : List UInt8)
    (failure : Option String) :
    lines ⟨bytes ++ 10 :: rest, failure⟩ =
      decode (dropReturn bytes) :: lines ⟨rest, failure⟩ := by
  have hne : Text.fields 10 rest ≠ [] := List.cons_ne_nil _ _
  simp only [lines, fields_append_delimiter h, List.dropLast_cons_of_ne_nil hne,
    List.getLast?_cons_of_ne_nil hne, List.map_cons, List.cons_append]

/-- The lines of terminated parts and a rest are the parts and what the rest stands for. -/
theorem lines_parts {parts : List (List UInt8)} {rest : List UInt8} (h : ∀ part ∈ parts, 10 ∉ part)
    (hrest : 10 ∉ rest) (failure : Option String) :
    lines ⟨parts.flatMap (· ++ [10]) ++ rest, failure⟩ =
      parts.map (fun bytes => decode (dropReturn bytes)) ++ lastLine rest failure := by
  simp only [lines, fields_parts h hrest, List.dropLast_concat, List.getLast?_concat,
    Option.getD_some]

/-- Every line of the bytes is terminated. -/
def Terminated (bytes : List UInt8) : Prop := bytes = [] ∨ bytes.getLast? = some 10

instance (bytes : List UInt8) : Decidable (Terminated bytes) :=
  inferInstanceAs (Decidable (_ ∨ _))

/-- Bytes are terminated exactly if no rest follows their parts. -/
theorem terminated_parts_iff {parts : List (List UInt8)} {rest : List UInt8} (hrest : 10 ∉ rest) :
    Terminated (parts.flatMap (· ++ [10]) ++ rest) ↔ rest = [] := by
  constructor
  · rintro (hnil | hlast)
    · exact (List.append_eq_nil_iff.mp hnil).2
    · cases hr : rest.getLast? with
      | none => exact List.getLast?_eq_none_iff.mp hr
      | some b =>
        rw [List.getLast?_append, hr, Option.some_or] at hlast
        exact absurd (List.mem_of_getLast? (hr.trans hlast)) hrest
  · rintro rfl
    rw [List.append_nil]
    rcases List.eq_nil_or_concat parts with rfl | ⟨parts, part, rfl⟩
    · exact Or.inl rfl
    · right
      simp

/-- Terminated bytes come before others as their lines do. -/
theorem lines_append {bytes : List UInt8} (h : Terminated bytes) (content : Content) :
    lines ⟨bytes ++ content.bytes, content.failure⟩ = lines ⟨bytes, none⟩ ++ content.lines := by
  obtain ⟨parts, rest, hparts, hrest, rfl⟩ := exists_parts 10 bytes
  obtain rfl := (terminated_parts_iff hrest).mp h
  obtain ⟨more, rest', hmore, hrest', hbytes⟩ := exists_parts 10 content.bytes
  have hall : ∀ part ∈ parts ++ more, 10 ∉ part := by
    intro part hpart
    exact (List.mem_append.mp hpart).elim (hparts part) (hmore part)
  have hcontent : content.lines = lines ⟨more.flatMap (· ++ [10]) ++ rest', content.failure⟩ := by
    rw [← hbytes]
  rw [hcontent, hbytes, List.append_nil, ← List.append_assoc, ← List.flatMap_append,
    lines_parts hall hrest', lines_parts hmore hrest', ← List.append_nil (List.flatMap _ parts),
    lines_parts hparts List.not_mem_nil, lastLine_nil, List.map_append, List.append_assoc,
    List.append_nil]

/-- The bytes of a text are terminated if the text ends with a line feed. -/
theorem terminated_ofText {text : String} (h : text = "" ∨ text.toList.getLast? = some '\n') :
    Terminated (ofText text).bytes := by
  rw [bytes_ofText]
  rcases h with rfl | hlast
  · exact Or.inl rfl
  · obtain ⟨cs, hcs⟩ := List.getLast?_eq_some_iff.mp hlast
    right
    rw [hcs, encode_append, encode_cons, encode_nil, List.append_nil,
      getLast?_append_utf8EncodeChar]
    rfl

/-- A text that ends with a line feed comes before another as its lines do. -/
theorem lines_ofText_append {first : String}
    (h : first = "" ∨ first.toList.getLast? = some '\n') (second : String) :
    (ofText (first ++ second)).lines = (ofText first).lines ++ (ofText second).lines := by
  have hwhole : ofText (first ++ second) =
      ⟨(ofText first).bytes ++ (ofText second).bytes, (ofText second).failure⟩ := by
    have hbytes : (ofText (first ++ second)).bytes =
        (ofText first).bytes ++ (ofText second).bytes := by
      rw [bytes_ofText, bytes_ofText, bytes_ofText, String.toList_append, encode_append]
    rw [← hbytes]
    rfl
  rw [hwhole]
  exact lines_append (terminated_ofText h) (ofText second)

end Footprint.Content

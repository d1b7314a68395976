import Footprint.Proofs.Text.Fields
import Footprint.Trace.Source

/-!
# The lines of a text

A source delivers bytes, and its lines are cut from bytes. For a text the same
lines are found by cutting its characters: the bytes of a character that needs
more than one are all at least 128, so neither a line feed nor a carriage return
hides inside it, and every piece is decoded to the characters it was made from.
-/

namespace Footprint

namespace Text

/-- The characters of a terminated line without a final carriage return. -/
def dropReturn (cs : List Char) : List Char :=
  if cs.getLast? = some '\r' then cs.dropLast else cs

/-- The lines of a text. What follows the last line feed is a line unless it is empty. -/
def lines (text : String) : List String :=
  let parts := fields '\n' text.toList
  let rest := parts.getLast?.getD []
  parts.dropLast.map (fun cs => String.ofList (dropReturn cs)) ++
    if rest = [] then [] else [String.ofList rest]

/-- The bytes of some characters in UTF-8. -/
def encode (cs : List Char) : List UInt8 :=
  cs.flatMap String.utf8EncodeChar

@[simp] theorem encode_nil : encode [] = [] := rfl

theorem encode_cons (c : Char) (cs : List Char) :
    encode (c :: cs) = String.utf8EncodeChar c ++ encode cs := rfl

theorem encode_append (cs ds : List Char) : encode (cs ++ ds) = encode cs ++ encode ds :=
  List.flatMap_append

/-- Only the empty text has no bytes. -/
theorem encode_eq_nil_iff {cs : List Char} : encode cs = [] ↔ cs = [] := by
  cases cs with
  | nil => exact iff_of_true rfl rfl
  | cons c cs =>
    simp only [encode_cons, List.append_eq_nil_iff, String.utf8EncodeChar_ne_nil, false_and,
      reduceCtorEq]

/-- A byte below 128 occurs only as the character with its number. -/
theorem toNat_eq_of_mem_utf8EncodeChar {c : Char} {b : UInt8} (hb : b.toNat < 128)
    (h : b ∈ String.utf8EncodeChar c) : c.toNat = b.toNat := by
  have hval : c.val.toNat = c.toNat := rfl
  simp only [String.utf8EncodeChar] at h
  split at h
  · rw [List.mem_singleton.mp h, UInt8.toNat_ofNat', hval]
    omega
  · -- every byte of a longer form is a remainder raised by at least 128
    split at h
    · simp only [List.mem_cons, List.not_mem_nil, or_false] at h
      rcases h with rfl | rfl <;> rw [UInt8.toNat_ofNat'] at hb <;> omega
    · split at h
      · simp only [List.mem_cons, List.not_mem_nil, or_false] at h
        rcases h with rfl | rfl | rfl <;> rw [UInt8.toNat_ofNat'] at hb <;> omega
      · simp only [List.mem_cons, List.not_mem_nil, or_false] at h
        rcases h with rfl | rfl | rfl | rfl <;> rw [UInt8.toNat_ofNat'] at hb <;> omega

/-- A line feed byte is a line feed. -/
theorem lineFeed_notMem {c : Char} (hc : c ≠ '\n') : (10 : UInt8) ∉ String.utf8EncodeChar c := by
  intro h
  exact hc (Char.toNat_inj.mp (toNat_eq_of_mem_utf8EncodeChar (by decide) h))

/-- A carriage return byte is a carriage return. -/
theorem carriageReturn_notMem {c : Char} (hc : c ≠ '\r') :
    (13 : UInt8) ∉ String.utf8EncodeChar c := by
  intro h
  exact hc (Char.toNat_inj.mp (toNat_eq_of_mem_utf8EncodeChar (by decide) h))

/-- The last byte is one of the last character. -/
theorem getLast?_append_utf8EncodeChar (bytes : List UInt8) (c : Char) :
    (bytes ++ String.utf8EncodeChar c).getLast? = (String.utf8EncodeChar c).getLast? := by
  rw [List.getLast?_append, List.getLast?_eq_some_getLast String.utf8EncodeChar_ne_nil,
    Option.some_or]

/-- Cutting the bytes at line feeds is cutting the characters at line feeds. -/
theorem fields_encode (cs : List Char) :
    fields 10 (encode cs) = (fields '\n' cs).map encode := by
  induction cs with
  | nil => rfl
  | cons c cs ih =>
    by_cases hc : c = '\n'
    · subst hc
      rw [encode_cons, fields_delimiter, List.map_cons, ← ih, encode_nil]
      exact fields_delimiter 10 (encode cs)
    · rw [encode_cons, fields_append (lineFeed_notMem hc), ih, fields_cons hc]
      cases fields '\n' cs <;> rfl

/-- Lines that are ended by one line feed each are found again, up to their final returns. -/
theorem lines_terminated {ls : List String} (h : ∀ l ∈ ls, '\n' ∉ l.toList) :
    lines (String.join (ls.map (· ++ "\n"))) =
      ls.map fun l => String.ofList (dropReturn l.toList) := by
  have hchars : (String.join (ls.map (· ++ "\n"))).toList =
      (ls.map String.toList).flatMap (· ++ ['\n']) := by
    simp only [String.toList_join, List.flatMap_map, String.toList_append]
    rfl
  have hparts : fields '\n' (String.join (ls.map (· ++ "\n"))).toList =
      ls.map String.toList ++ [[]] := by
    rw [hchars, fields_terminated]
    intro part hpart
    obtain ⟨l, hl, rfl⟩ := List.mem_map.mp hpart
    exact h l hl
  rw [lines, hparts, List.dropLast_concat, List.getLast?_concat, Option.getD_some, if_pos rfl,
    List.append_nil, List.map_map]
  rfl

end Text

namespace Content

open Text

/-- Dropping the return byte is dropping the return character. -/
theorem dropReturn_encode (cs : List Char) :
    dropReturn (encode cs) = encode (Text.dropReturn cs) := by
  rcases List.eq_nil_or_concat cs with rfl | ⟨cs, c, rfl⟩
  · rfl
  · rw [List.concat_eq_append]
    by_cases hc : c = '\r'
    · subst hc
      have hbytes : encode (cs ++ ['\r']) = encode cs ++ [13] := encode_append cs ['\r']
      rw [Text.dropReturn, if_pos List.getLast?_concat, List.dropLast_concat, dropReturn, hbytes,
        if_pos List.getLast?_concat, List.dropLast_concat]
    · have hlast : (encode (cs ++ [c])).getLast? ≠ some 13 := by
        intro h
        rw [encode_append, encode_cons, encode_nil, List.append_nil,
          getLast?_append_utf8EncodeChar] at h
        exact carriageReturn_notMem hc (List.mem_of_getLast? h)
      have hkeep : (cs ++ [c]).getLast? ≠ some '\r' := by
        rw [List.getLast?_concat]
        exact fun h => hc (Option.some.inj h)
      rw [dropReturn, if_neg hlast, Text.dropReturn, if_neg hkeep]

/-- The bytes of encoded characters are decoded to their text. -/
theorem decode_encode (cs : List Char) : decode (encode cs) = .ok (String.ofList cs) := by
  rw [decode_eq_ok_iff, String.toByteArray_ofList]
  rfl

private theorem toList_loop_eq (bytes : ByteArray) (i : Nat) (before : List UInt8) :
    ByteArray.toList.loop bytes i before = before.reverse ++ bytes.data.toList.drop i := by
  fun_induction ByteArray.toList.loop bytes i before with
  | case1 i before h ih =>
    have hi : i < bytes.data.toList.length := h
    have hget : bytes.get! i = bytes.data.toList[i] := getElem!_pos bytes.data i h
    rw [ih, List.drop_eq_getElem_cons hi, List.reverse_cons, List.append_assoc, hget]
    rfl
  | case2 i before h =>
    rw [List.drop_eq_nil_of_le (Nat.le_of_not_lt h), List.append_nil]

/-- A text delivers the bytes of its characters. -/
theorem bytes_ofText (text : String) : (ofText text).bytes = encode text.toList := by
  have hbytes : text.toUTF8 = (encode text.toList).toByteArray := by
    rw [String.toUTF8_eq_toByteArray, ← String.utf8Encode_toList]
    rfl
  rw [ofText, hbytes, ByteArray.toList, toList_loop_eq, List.reverse_nil, List.nil_append,
    List.drop_zero, List.toList_data_toByteArray]

/-- The lines read from the bytes of a text are the lines of the text. -/
theorem lines_ofText (text : String) : (ofText text).lines = (Text.lines text).map .ok := by
  have hfailure : (ofText text).failure = none := rfl
  simp only [lines, Text.lines, bytes_ofText, hfailure, fields_encode, lastLine, List.map_append,
    List.map_map, ← List.map_dropLast, List.getLast?_map]
  congr 1
  · apply List.map_congr_left
    intro cs _
    simp only [Function.comp_apply, dropReturn_encode, decode_encode]
  · have hrest : ((Text.fields '\n' text.toList).getLast?.map encode).getD [] =
        encode ((Text.fields '\n' text.toList).getLast?.getD []) := by
      cases (Text.fields '\n' text.toList).getLast? <;> rfl
    simp only [hrest, encode_eq_nil_iff, decode_encode]
    split <;> rfl

end Content

end Footprint

import Footprint.Proofs.Trace.Contents
import Footprint.Proofs.Trace.Lockstep

/-!
# The ends of lines say nothing

A blank at the end of a line belongs to its last field, and every field that is read or
quoted is trimmed. So a line with one more carriage return at its end has the same verdict,
also where it is refused. A source with returns before its line feeds, or with a line feed
after its last line, has the same verdicts on its lines as one without.
-/

namespace Footprint

namespace Text

/-- A blank at the end is trimmed. -/
theorem trim_concat {c : Char} (h : isBlank c = true) (cs : List Char) :
    trim (cs ++ [c]) = trim cs := by
  have hc : [c].dropWhile isBlank = [] := by simp [h]
  rw [trim, trim, List.dropWhile_append]
  split
  · rename_i hempty
    rw [List.isEmpty_iff.mp hempty, hc]
  · rw [List.reverse_append, List.reverse_singleton, List.singleton_append,
      List.dropWhile_cons_of_pos h]

/-- A character that is no delimiter joins the last field when it stands at the end. -/
theorem fields_concat {d c : Char} (h : c ≠ d) (cs : List Char) :
    ∃ before last, fields d cs = before ++ [last] ∧
      fields d (cs ++ [c]) = before ++ [last ++ [c]] := by
  induction cs with
  | nil => exact ⟨[], [], rfl, by rw [List.nil_append, fields_cons h]; rfl⟩
  | cons x cs ih =>
    obtain ⟨before, last, hcs, hconcat⟩ := ih
    by_cases hx : x = d
    · subst hx
      refine ⟨[] :: before, last, ?_, ?_⟩
      · rw [fields_delimiter, hcs, List.cons_append]
      · rw [List.cons_append, fields_delimiter, hconcat, List.cons_append]
    · rw [List.cons_append, fields_cons hx, fields_cons hx, hcs, hconcat]
      cases before with
      | nil => exact ⟨[], x :: last, rfl, rfl⟩
      | cons field before => exact ⟨(x :: field) :: before, last, rfl, rfl⟩

/-- A blank at the end that is no delimiter changes no trimmed field. -/
theorem map_trim_fields_concat {d c : Char} (hc : c ≠ d) (hblank : isBlank c = true)
    (cs : List Char) : (fields d (cs ++ [c])).map trim = (fields d cs).map trim := by
  obtain ⟨before, last, hcs, hconcat⟩ := fields_concat hc cs
  rw [hcs, hconcat, List.map_append, List.map_append, List.map_singleton, List.map_singleton,
    trim_concat hblank]

end Text

namespace Entry

variable {layout : Layout} {line : Nat}

/-- A number is read from the trimmed field. -/
theorem number_congr {field : Field} {raw raw' : List Char} (h : Text.trim raw = Text.trim raw') :
    number layout line field raw = number layout line field raw' := by
  rw [number, number, h]

/-- Fields that are trimmed to the same text are missing in the same places. -/
theorem getElem?_cases {fields fields' : List (List Char)}
    (h : fields.map Text.trim = fields'.map Text.trim) (i : Nat) :
    (fields[i]? = none ∧ fields'[i]? = none) ∨
      ∃ raw raw', fields[i]? = some raw ∧ fields'[i]? = some raw' ∧
        Text.trim raw = Text.trim raw' := by
  have hget : fields[i]?.map Text.trim = fields'[i]?.map Text.trim := by
    rw [← List.getElem?_map, ← List.getElem?_map, h]
  cases hi : fields[i]? with
  | none =>
    rw [hi, Option.map_none, eq_comm, Option.map_eq_none_iff] at hget
    exact Or.inl ⟨rfl, hget⟩
  | some raw =>
    rw [hi, Option.map_some, eq_comm, Option.map_eq_some_iff] at hget
    obtain ⟨raw', hi', htrim⟩ := hget
    exact Or.inr ⟨raw, raw', rfl, hi', htrim.symm⟩

/-- An entry is read from the trimmed fields. -/
theorem parse_congr {text text' : String} {timed : Bool}
    (h : (Text.fields layout.delimiter text.toList).map Text.trim =
      (Text.fields layout.delimiter text'.toList).map Text.trim) :
    parse layout line text timed = parse layout line text' timed := by
  unfold parse
  generalize Text.fields layout.delimiter text.toList = fields at h ⊢
  generalize Text.fields layout.delimiter text'.toList = fields' at h ⊢
  have hlength : fields.length = fields'.length := by
    simpa only [List.length_map] using congrArg List.length h
  have hstamp : (if timed then fields[layout.timestamp]? else none).mapM
        (number layout line .timestamp) =
      (if timed then fields'[layout.timestamp]? else none).mapM
        (number layout line .timestamp) := by
    cases timed with
    | false => rfl
    | true =>
      obtain ⟨hi, hi'⟩ | ⟨raw, raw', hi, hi', htrim⟩ := getElem?_cases h layout.timestamp
      · rw [hi, hi']
      · rw [hi, hi', if_pos rfl, if_pos rfl, Option.mapM_some, Option.mapM_some,
          number_congr htrim]
  obtain ⟨hi, hi'⟩ | ⟨start, start', hi, hi', hstart⟩ := getElem?_cases h layout.start
  · simp only [hi, hi', hlength]
  · obtain ⟨hj, hj'⟩ | ⟨length, length', hj, hj', hlength'⟩ := getElem?_cases h layout.length
    · simp only [hi, hi', hj, hj', hlength]
    · simp only [hi, hi', hj, hj', hstamp, number_congr hstart, number_congr hlength']

/-- A blank at the end of a line changes nothing. -/
theorem parse_push {c : Char} (hc : c ≠ layout.delimiter) (hblank : Text.isBlank c = true)
    (text : String) (timed : Bool) :
    parse layout line (text.push c) timed = parse layout line text timed := by
  apply parse_congr
  rw [String.toList_push, Text.map_trim_fields_concat hc hblank]

end Entry

namespace Line

open Content (decode dropReturn)

/-- A carriage return at the end of a line changes nothing. -/
theorem verdict_map_push (format : Format) (timed : Bool) (number : Nat)
    (line : Except Content.Fault String) :
    verdict format timed number (line.map (String.push · '\r')) =
      verdict format timed number line := by
  cases line with
  | error e => rfl
  | ok text =>
    have hdelimiter : '\r' ≠ format.layout.delimiter := by cases format <;> decide
    rw [Except.map, verdict, Entry.parse_push hdelimiter rfl, verdict]

/-- The bytes of a line have the same verdict with one more carriage return at their end. -/
theorem verdict_decode_concat (format : Format) (timed : Bool) (number : Nat)
    (bytes : List UInt8) :
    verdict format timed number (decode (bytes ++ [13])) =
      verdict format timed number (decode bytes) := by
  rw [Content.decode_concat (b := 13) (c := '\r') (by decide) rfl, verdict_map_push]

/-- The bytes of a line have the same verdict without the carriage return at their end. -/
theorem verdict_decode_dropReturn (format : Format) (timed : Bool) (number : Nat)
    (bytes : List UInt8) :
    verdict format timed number (decode (dropReturn bytes)) =
      verdict format timed number (decode bytes) := by
  rw [dropReturn]
  split
  · rename_i hlast
    obtain ⟨front, rfl⟩ := List.getLast?_eq_some_iff.mp hlast
    rw [List.dropLast_concat, verdict_decode_concat]
  · rfl

/-- Lines made in two ways from the same things have the same verdicts if both ways give each of
them the same verdict. -/
theorem verdictsFrom_map_congr {α : Type} {format : Format} {timed : Bool}
    {f g : α → Except Content.Fault String}
    (h : ∀ number x, verdict format timed number (f x) = verdict format timed number (g x))
    (number : Nat) (xs : List α) :
    verdictsFrom format timed number (xs.map f) = verdictsFrom format timed number (xs.map g) := by
  induction xs generalizing number with
  | nil => rfl
  | cons x xs ih => rw [List.map_cons, List.map_cons, verdictsFrom, verdictsFrom, h, ih]

end Line

namespace Content

open Text

/-- A carriage return before every line feed. -/
def withReturns (bytes : List UInt8) : List UInt8 :=
  bytes.flatMap fun b => if b = 10 then [13, 10] else [b]

/-- A line feed after the last line, unless every line is terminated. -/
def terminate (bytes : List UInt8) : List UInt8 :=
  if Terminated bytes then bytes else bytes ++ [10]

/-- The lines of a source that does not fail have the verdicts of their bytes, however they end. -/
theorem verdicts_lines_parts {parts : List (List UInt8)} {rest : List UInt8}
    (hparts : ∀ part ∈ parts, 10 ∉ part) (hrest : 10 ∉ rest) (format : Format) (timed : Bool) :
    Line.verdicts format timed (lines ⟨parts.flatMap (· ++ [10]) ++ rest, none⟩) =
      Line.verdicts format timed ((parts ++ if rest = [] then [] else [rest]).map decode) := by
  have hlast : lastLine rest none = (if rest = [] then [] else [rest]).map decode := by
    rw [lastLine]
    split <;> rfl
  rw [lines_parts hparts hrest, hlast, List.map_append, Line.verdicts, Line.verdictsFrom_append,
    Line.verdictsFrom_map_congr (Line.verdict_decode_dropReturn format timed), Line.verdicts,
    Line.verdictsFrom_append, List.length_map, List.length_map]

/-- What holds no line feed gets no carriage return. -/
theorem withReturns_of_notMem {bytes : List UInt8} (h : 10 ∉ bytes) :
    withReturns bytes = bytes := by
  induction bytes with
  | nil => rfl
  | cons b bytes ih =>
    rw [List.mem_cons, not_or] at h
    rw [withReturns, List.flatMap_cons, if_neg (Ne.symm h.1), ← withReturns, ih h.2]
    rfl

/-- The returns come at the ends of the terminated parts. -/
theorem withReturns_parts {parts : List (List UInt8)} {rest : List UInt8}
    (hparts : ∀ part ∈ parts, 10 ∉ part) (hrest : 10 ∉ rest) :
    withReturns (parts.flatMap (· ++ [10]) ++ rest) =
      (parts.map (· ++ [13])).flatMap (· ++ [10]) ++ rest := by
  have happend (xs ys : List UInt8) : withReturns (xs ++ ys) = withReturns xs ++ withReturns ys :=
    List.flatMap_append
  have hfeed : withReturns [10] = [13, 10] := rfl
  induction parts with
  | nil => exact withReturns_of_notMem hrest
  | cons part parts ih =>
    rw [List.forall_mem_cons] at hparts
    rw [List.flatMap_cons, List.append_assoc, happend, happend, withReturns_of_notMem hparts.1,
      hfeed, ih hparts.2, List.map_cons, List.flatMap_cons]
    simp only [List.append_assoc, List.cons_append, List.nil_append]

/-- Carriage returns before the line feeds change no verdict. -/
theorem verdicts_lines_withReturns (format : Format) (timed : Bool) (bytes : List UInt8) :
    Line.verdicts format timed (lines ⟨withReturns bytes, none⟩) =
      Line.verdicts format timed (lines ⟨bytes, none⟩) := by
  obtain ⟨parts, rest, hparts, hrest, rfl⟩ := exists_parts 10 bytes
  have hreturns : ∀ part ∈ parts.map (· ++ [13]), 10 ∉ part := by
    intro part hpart
    obtain ⟨part, hmem, rfl⟩ := List.mem_map.mp hpart
    simpa using hparts part hmem
  rw [withReturns_parts hparts hrest, verdicts_lines_parts hreturns hrest,
    verdicts_lines_parts hparts hrest, List.map_append, List.map_append, List.map_map,
    Line.verdicts, Line.verdicts, Line.verdictsFrom_append, Line.verdictsFrom_append,
    List.length_map, List.length_map]
  congr 1
  exact Line.verdictsFrom_map_congr (Line.verdict_decode_concat format timed) 1 parts

/-- A line feed after the last line changes no verdict. -/
theorem verdicts_lines_terminate (format : Format) (timed : Bool) (bytes : List UInt8) :
    Line.verdicts format timed (lines ⟨terminate bytes, none⟩) =
      Line.verdicts format timed (lines ⟨bytes, none⟩) := by
  obtain ⟨parts, rest, hparts, hrest, rfl⟩ := exists_parts 10 bytes
  by_cases hnil : rest = []
  · rw [terminate, if_pos ((terminated_parts_iff hrest).mpr hnil)]
  · have hclosed : parts.flatMap (· ++ [10]) ++ rest ++ [10] =
        (parts ++ [rest]).flatMap (· ++ [10]) ++ [] := by
      simp only [List.flatMap_append, List.flatMap_singleton, List.append_assoc, List.append_nil]
    have hall : ∀ part ∈ parts ++ [rest], 10 ∉ part := by
      intro part hpart
      rcases List.mem_append.mp hpart with hpart | hpart
      · exact hparts part hpart
      · rwa [List.mem_singleton.mp hpart]
    rw [terminate, if_neg (mt (terminated_parts_iff hrest).mp hnil), hclosed,
      verdicts_lines_parts hall List.not_mem_nil, verdicts_lines_parts hparts hrest, if_pos rfl,
      if_neg hnil, List.append_nil]

end Content

end Footprint

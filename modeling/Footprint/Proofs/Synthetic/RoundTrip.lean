import Footprint.Proofs.Trace.Transcript
import Footprint.Synthetic.Request

/-!
# Synthetic traces are read as they were written

The line of a request is its fields with the delimiter of the format between them. No field
holds anything but letters and digits, so dividing the line gives the fields back, trimming
removes nothing, and the three numbers are found where the layout of the format expects
them. No line holds a line feed or ends in a return, so the lines of the whole trace are
the lines written, and a reading without a limit gives every request that is not empty.
-/

namespace Footprint

namespace Text

/-- A digit is no blank. -/
theorem isBlank_of_isDigit {c : Char} (h : c.isDigit = true) : isBlank c = false := by
  simp only [Char.isDigit, Bool.and_eq_true, decide_eq_true_eq, ge_iff_le,
    UInt32.le_iff_toNat_le] at h
  have hrange : 48 ≤ c.toNat ∧ c.toNat ≤ 57 := h
  simp only [isBlank, Bool.or_eq_false_iff, Bool.and_eq_false_iff, decide_eq_false_iff_not,
    beq_eq_false_iff_ne]
  omega

end Text

/-- A field that holds the decimal form of a word is read as that word. -/
theorem Entry.number_toDigits (layout : Layout) (line : Nat) (field : Field) (w : UInt64) :
    number layout line field (Nat.toDigits 10 w.toNat) = .ok w := by
  have htrim : Text.trim (Nat.toDigits 10 w.toNat) = Nat.toDigits 10 w.toNat :=
    Text.trim_eq_self fun _ hc => Text.isBlank_of_isDigit (Text.isDigit_of_mem_decimal hc)
  rw [number, htrim, Text.word?_toDigits]

namespace Synthetic

namespace Request

/-- The fields on the line of a request. -/
def fields (r : Request) : Format → List (List Char)
  | .fiu =>
    [Nat.toDigits 10 r.timestamp.toNat, "4242".toList, "synth".toList,
      Nat.toDigits 10 r.start.toNat, Nat.toDigits 10 r.length.toNat,
      if r.write then "W".toList else "R".toList, "8".toList, "0".toList,
      "00000000000000000000000000000000".toList]
  | .msr =>
    [Nat.toDigits 10 r.timestamp.toNat, "synth".toList, "0".toList,
      if r.write then "Write".toList else "Read".toList, Nat.toDigits 10 r.start.toNat,
      Nat.toDigits 10 r.length.toNat, "100".toList]

/-- What the line of a request says, with its timestamp if that is asked for. -/
def entry (r : Request) (timed : Bool) : Entry :=
  { access := Access.ofRequest? r.start r.length
    timestamp := if timed then some r.timestamp else none }

/-- The line of a request is its fields with the delimiter between them. -/
theorem toList_render (r : Request) (format : Format) :
    (r.render format).toList = [format.layout.delimiter].intercalate (r.fields format) := by
  have htext (s : String) : toString s = s := rfl
  have hword (w : UInt64) : (toString w).toList = Nat.toDigits 10 w.toNat := by simp [toString]
  cases format <;>
    simp only [render, String.toList_append, htext, hword, fields, Format.layout] <;>
    cases r.write <;> simp [List.intercalate]

/-- Fields hold letters and digits only. -/
theorem isAlphanum_of_mem_fields (r : Request) (format : Format) :
    ∀ field ∈ r.fields format, ∀ c ∈ field, c.isAlphanum = true := by
  have hnumber (n : Nat) : ∀ c ∈ Nat.toDigits 10 n, c.isAlphanum = true := by
    intro c hc
    rw [Char.isAlphanum, Text.isDigit_of_mem_decimal hc, Bool.or_true]
  have hword (w : String) (h : w.toList.all Char.isAlphanum = true) :
      ∀ c ∈ w.toList, c.isAlphanum = true := List.all_eq_true.mp h
  cases format with
  | fiu =>
    have hkind : ∀ c ∈ if r.write then "W".toList else "R".toList, c.isAlphanum = true := by
      cases r.write
      · exact hword "R" rfl
      · exact hword "W" rfl
    simp only [fields, List.forall_mem_cons]
    exact ⟨hnumber _, hword _ rfl, hword _ rfl, hnumber _, hnumber _, hkind, hword _ rfl,
      hword _ rfl, hword _ rfl, nofun⟩
  | msr =>
    have hkind : ∀ c ∈ if r.write then "Write".toList else "Read".toList,
        c.isAlphanum = true := by
      cases r.write
      · exact hword "Read" rfl
      · exact hword "Write" rfl
    simp only [fields, List.forall_mem_cons]
    exact ⟨hnumber _, hword _ rfl, hword _ rfl, hkind, hnumber _, hnumber _, hword _ rfl, nofun⟩

/-- Every character of a line is a delimiter or a letter or a digit. -/
theorem eq_delimiter_or_isAlphanum {r : Request} {format : Format} {c : Char}
    (h : c ∈ (r.render format).toList) : c = format.layout.delimiter ∨ c.isAlphanum = true := by
  rw [toList_render] at h
  refine (Text.eq_or_exists_of_mem_intercalate h).imp_right ?_
  rintro ⟨field, hfield, hc⟩
  exact r.isAlphanum_of_mem_fields format field hfield c hc

/-- The line of a request is divided into its fields. -/
theorem fields_render (r : Request) (format : Format) :
    Text.fields format.layout.delimiter (r.render format).toList = r.fields format := by
  have hdelimiter : format.layout.delimiter.isAlphanum = false := by cases format <;> rfl
  have hne : r.fields format ≠ [] := by cases format <;> exact List.cons_ne_nil _ _
  rw [toList_render, Text.fields_intercalate ?_ hne]
  intro field hfield hmem
  exact Bool.false_ne_true
    (hdelimiter.symm.trans (r.isAlphanum_of_mem_fields format field hfield _ hmem))

/-- The line of a request says what the request is, whatever its number. -/
theorem parse_render (r : Request) (format : Format) (number : Nat) (timed : Bool) :
    Entry.parse format.layout number (r.render format) timed = .ok (r.entry timed) := by
  have hstart : (r.fields format)[format.layout.start]? = some (Nat.toDigits 10 r.start.toNat) := by
    cases format <;> rfl
  have hlength : (r.fields format)[format.layout.length]? =
      some (Nat.toDigits 10 r.length.toNat) := by
    cases format <;> rfl
  have hstamp : (r.fields format)[format.layout.timestamp]? =
      some (Nat.toDigits 10 r.timestamp.toNat) := by
    cases format <;> rfl
  rw [Entry.parse, fields_render]
  dsimp only
  rw [hstart, hlength, hstamp]
  dsimp only
  rw [Entry.number_toDigits, Entry.number_toDigits]
  cases timed with
  | false => rfl
  | true =>
    simp only [if_true, Option.mapM_some, Entry.number_toDigits]
    rfl

/-- The line of a request holds neither a line feed nor a carriage return. -/
theorem lineBreak_notMem_render (r : Request) (format : Format) :
    '\n' ∉ (r.render format).toList ∧ '\r' ∉ (r.render format).toList := by
  constructor
  all_goals
    intro h
    rcases eq_delimiter_or_isAlphanum h with hd | hd
    · cases format <;> exact absurd hd (by decide)
    · exact absurd hd (by decide)

/-- A request has an access with its numbers exactly if its length is not zero. -/
theorem map_access_entry (r : Request) (timed : Bool) :
    (r.entry timed).access.map (fun a => (a.start, a.length)) =
      if r.length = 0 then none else some (r.start, r.length) := by
  by_cases h : r.length = 0
  · have hnone : (r.entry timed).access = none := Access.ofRequest?_eq_none_iff.mpr h
    rw [hnone, if_pos h]
    rfl
  · cases ha : (r.entry timed).access with
    | none => exact absurd (Access.ofRequest?_eq_none_iff.mp ha) h
    | some a =>
      obtain ⟨hstart, hlength⟩ := Access.ofRequest?_eq_some_iff.mp ha
      rw [Option.map_some, hstart, hlength, if_neg h]

/-- A request has no access exactly if its length is zero. -/
theorem isNone_access_entry (r : Request) (timed : Bool) :
    (r.entry timed).access.isNone = decide (r.length = 0) := by
  rw [Bool.eq_iff_iff, decide_eq_true_iff, Option.isNone_iff_eq_none]
  exact Access.ofRequest?_eq_none_iff

end Request

/-- The lines of a synthetic trace are the lines of its requests. -/
theorem lines_render (format : Format) (rs : List Request) :
    Text.lines (render format rs) = rs.map (·.render format) := by
  have htext : render format rs =
      String.join ((rs.map (·.render format)).map (· ++ "\n")) := by
    rw [render, List.map_map]
    rfl
  have hfeed : ∀ l ∈ rs.map (·.render format), '\n' ∉ l.toList := by
    intro l hl
    obtain ⟨r, _, rfl⟩ := List.mem_map.mp hl
    exact (r.lineBreak_notMem_render format).1
  rw [htext, Text.lines_terminated hfeed, List.map_map]
  apply List.map_congr_left
  intro r _
  have hreturn : (r.render format).toList.getLast? ≠ some '\r' := fun h =>
    (r.lineBreak_notMem_render format).2 (List.mem_of_getLast? h)
  rw [Function.comp_apply, Text.dropReturn, if_neg hreturn, String.ofList_toList]

/-- Every line of a synthetic trace says what its request is. -/
theorem verdictsFrom_render (format : Format) (timed : Bool) (number : Nat)
    (rs : List Request) :
    Line.verdictsFrom format timed number ((rs.map (·.render format)).map .ok) =
      (rs.map (·.entry timed)).map .ok := by
  induction rs generalizing number with
  | nil => rfl
  | cons r rest ih =>
    have hline : Line.verdict format timed number (.ok (r.render format)) =
        .ok (r.entry timed) := by
      rw [Line.verdict, r.parse_render]
      rfl
    rw [List.map_cons, List.map_cons, Line.verdictsFrom, hline, ih, List.map_cons,
      List.map_cons]

/-- The accesses of requests are those that are not empty. -/
theorem map_filterMap_access_entry (rs : List Request) :
    (rs.filterMap fun r => (r.entry false).access).map (fun a => (a.start, a.length)) =
      (rs.filter fun r => r.length ≠ 0).map fun r => (r.start, r.length) := by
  rw [List.map_filterMap]
  simp only [Request.map_access_entry]
  induction rs with
  | nil => rfl
  | cons r rest ih =>
    by_cases h : r.length = 0
    · rw [List.filter_cons_of_neg (by simpa using h), ← ih, List.filterMap_cons]
      simp only [if_pos h]
    · rw [List.filter_cons_of_pos (by simpa using h), List.map_cons, ← ih, List.filterMap_cons]
      simp only [if_neg h]

/-- The lines of requests are read back as the requests, whatever numbers they have, and a trace
made of them gives, without a limit, the requests that are not empty in their order and no fault;
all lines are counted, and the empty requests among them. -/
theorem read_render (format : Format) (rs : List Request) :
    let given := rs.filterMap fun r => (r.entry false).access
    let reading := Reading.start format none (.ofText (render format rs))
    (∀ (r : Request) number timed, ∃ e,
        Entry.parse format.layout number (r.render format) timed = .ok e ∧
          e.access.map (fun a => (a.start, a.length)) =
            (if r.length = 0 then none else some (r.start, r.length)) ∧
          e.timestamp = if timed then some r.timestamp else none) ∧
      given.map (fun a => (a.start, a.length)) =
        (rs.filter fun r => r.length ≠ 0).map (fun r => (r.start, r.length)) ∧
      (∀ n, (reading.after n).next.1 = (given.map Step.access)[n]?.getD .finished) ∧
      ∀ n, given.length < n →
        (reading.after n).stats =
          { lines := rs.length, empty := rs.countP fun r => r.length = 0, closed := false } := by
  intro given reading
  have hverdicts : Line.verdicts format false (Content.ofText (render format rs)).lines =
      (rs.map (·.entry false)).map .ok := by
    rw [Content.lines_ofText, lines_render]
    exact verdictsFrom_render format false 1 rs
  have hgiven : (rs.map (·.entry false)).filterMap Entry.access = given := by
    rw [List.filterMap_map]
    rfl
  obtain ⟨hnext, hstats⟩ := Reading.next_after_start_of_entries hverdicts
  rw [hgiven] at hnext hstats
  refine ⟨?_, map_filterMap_access_entry rs, hnext, ?_⟩
  · intro r number timed
    exact ⟨r.entry timed, r.parse_render format number timed, r.map_access_entry timed, rfl⟩
  · intro n hn
    rw [hstats n hn, List.length_map, List.countP_map]
    simp only [Function.comp_def, Request.isNone_access_entry]

end Synthetic

end Footprint

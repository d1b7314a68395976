import Footprint.Proofs.Trace.Contents
import Footprint.Proofs.Trace.Transcript
import Footprint.Trace.Feed

/-!
# Feeds read the content of their deliveries

The lines a feed puts together are the lines of the content delivered: a cut or an
interruption may fall anywhere, inside a line, between the two characters of its end
or inside a character, and is not seen. So a feed and the reading of its content take
every step together. After a failure, or a line that is no text, nothing more is read,
and what came of the unfinished line before a failure is lost.
-/

namespace Footprint

namespace Content

open Text

/-- What follows deliveries without a failure follows their bytes. -/
theorem ofDeliveries_append_of_failure_eq_none {before : List Delivery}
    (h : (ofDeliveries before).failure = none) (later : List Delivery) :
    ofDeliveries (before ++ later) =
      ⟨(ofDeliveries before).bytes ++ (ofDeliveries later).bytes,
        (ofDeliveries later).failure⟩ := by
  induction before with
  | nil => rfl
  | cons delivery before ih =>
    cases delivery with
    | data chunk =>
      simp only [List.cons_append, ofDeliveries, ih h, List.append_assoc]
    | interrupted => exact ih h
    | failed reason => cases h

/-- The text of a terminated line is the text of its bytes without a final carriage return. -/
theorem decode_dropReturn (bytes : List UInt8) :
    decode (dropReturn bytes) =
      (decode bytes).map fun text => String.ofList (Text.dropReturn text.toList) := by
  obtain ⟨cs, rfl, hd⟩ | ⟨_, hd⟩ := decode_cases bytes
  · rw [hd, dropReturn_encode, decode_encode, Except.map, String.toList_ofList]
  · rw [hd]
    by_cases hlast : bytes.getLast? = some 13
    · obtain ⟨front, rfl⟩ := List.getLast?_eq_some_iff.mp hlast
      rw [dropReturn, if_pos hlast, List.dropLast_concat]
      rw [decode_concat (b := 13) (c := '\r') (by decide) rfl] at hd
      cases hfront : decode front with
      | ok text =>
        rw [hfront] at hd
        cases hd
      | error e =>
        rw [hfront] at hd
        exact hd
    · rw [dropReturn, if_neg hlast, hd]
      rfl

end Content

namespace Reading

/-- Lines that do not end the reading before a line that could not be read: their accesses are
given, then the reason is, and that line is not counted. -/
theorem next_after_start_of_fault {format : Format} {hours : Option UInt64} {content : Content}
    {good more : List (Except Content.Fault String)} {e : Content.Fault}
    (hlines : content.lines = good ++ .error e :: more)
    (hgo : ∀ v ∈ Line.verdicts format hours.isSome good,
      Line.ends (Line.deadline format hours (Line.verdicts format hours.isSome good)) v = false) :
    let vs := Line.verdicts format hours.isSome good
    let given := vs.filterMap Line.access?
    (∀ n, ((start format hours content).after n).next.1 =
        (given.map Step.access ++ [.fault (.content e)])[n]?.getD .finished) ∧
      ∀ n, given.length < n →
        ((start format hours content).after n).stats =
          { lines := good.length, empty := vs.countP Line.isEmpty, closed := false } := by
  intro vs given
  obtain ⟨hnext, hstats⟩ := next_after_start format hours content
  obtain ⟨after, hvs⟩ : ∃ after, Line.verdicts format hours.isSome content.lines =
      vs ++ .error (.content e) :: after := by
    rw [hlines, Line.verdicts, Line.verdictsFrom_append, Line.verdictsFrom]
    exact ⟨_, rfl⟩
  rw [hvs] at hnext hstats
  generalize hlast : Line.deadline format hours (vs ++ .error (.content e) :: after) = last
    at hnext hstats
  have hpass : ∀ v ∈ vs, Line.ends last v = false := by
    intro v hv
    rw [← hlast, Line.ends_deadline_append hv, hgo v hv]
  have hend : Line.ends last (.error (.content e)) = true := rfl
  have hbefore : (vs ++ .error (.content e) :: after).takeWhile (fun v => !Line.ends last v) =
      vs := by
    rw [List.takeWhile_append_of_pos fun v hv => by rw [hpass v hv]; rfl,
      Line.takeWhile_not_cons_of_pos hend, List.append_nil]
  have hstop : (vs ++ .error (.content e) :: after).find? (Line.ends last) =
      some (.error (.content e)) := by
    have hnone : vs.find? (Line.ends last) = none := by
      rw [List.find?_eq_none]
      intro v hv
      rw [hpass v hv]
      exact Bool.false_ne_true
    rw [List.find?_append, hnone, Option.none_or, List.find?_cons_of_pos hend]
  have hgiven : Line.given last (vs ++ .error (.content e) :: after) = given := by
    rw [Line.given, hbefore]
  constructor
  · intro n
    rw [hnext n, Line.steps, hgiven, hstop]
    rfl
  · intro n hn
    have hlength : vs.length = good.length := Line.length_verdictsFrom ..
    rw [hstats n (by rwa [hgiven]), hbefore, hstop, Progress.finalStats, hlength, Option.any_some,
      Option.any_some, Line.isLate_of_stamp?_eq_none rfl]
    rfl

end Reading

namespace Feed

open Content (decode)

/-- A terminated line loses its line feed and one carriage return before it. -/
theorem textOf_concat (bytes : List UInt8) :
    textOf (bytes ++ [10]) = decode (Content.dropReturn bytes) := by
  rw [textOf, Content.decode_concat (b := 10) (c := '\n') (by decide) rfl,
    Content.decode_dropReturn]
  cases decode bytes with
  | error e => rfl
  | ok text =>
    simp only [Except.map, String.toList_push, chomp, List.getLast?_concat, if_true,
      List.dropLast_concat]
    rfl

/-- A line without a line feed loses nothing. -/
theorem textOf_of_notMem {bytes : List UInt8} (h : 10 ∉ bytes) :
    textOf bytes = decode bytes := by
  rw [textOf]
  obtain ⟨cs, rfl, hd⟩ | ⟨_, hd⟩ := Content.decode_cases bytes
  · have hlast : cs.getLast? ≠ some '\n' := by
      intro hlast
      exact h (List.mem_flatMap.mpr ⟨'\n', List.mem_of_getLast? hlast, List.mem_singleton_self 10⟩)
    rw [hd, Except.map, String.toList_ofList, chomp, if_neg hlast]
  · rw [hd]
    rfl

/-- Putting a line together takes from the content the bytes up to its first line feed, or all bytes
if it has none. -/
theorem rawLine_cases {begun : List UInt8} (hbegun : 10 ∉ begun) (coming : List Delivery) :
    let bytes := begun ++ (Content.ofDeliveries coming).bytes
    let failure := (Content.ofDeliveries coming).failure
    (∃ line rest, 10 ∉ line ∧ rawLine begun coming = (.ok (line ++ [10]), rest) ∧
        bytes = line ++ 10 :: (Content.ofDeliveries rest).bytes ∧
        failure = (Content.ofDeliveries rest).failure) ∨
      10 ∉ bytes ∧
        ((failure = none ∧ rawLine begun coming = (.ok bytes, [])) ∨
          ∃ reason rest, failure = some reason ∧ rawLine begun coming = (.error reason, rest)) := by
  fun_induction rawLine begun coming with
  | case1 begun =>
    have hbytes : begun ++ (Content.ofDeliveries []).bytes = begun := List.append_nil begun
    rw [hbytes]
    exact Or.inr ⟨hbegun, Or.inl ⟨rfl, rfl⟩⟩
  | case2 begun rest ih => exact ih hbegun
  | case3 begun reason rest =>
    have hbytes : begun ++ (Content.ofDeliveries (.failed reason :: rest)).bytes = begun :=
      List.append_nil begun
    rw [hbytes]
    exact Or.inr ⟨hbegun, Or.inr ⟨reason, rest, rfl, rfl⟩⟩
  | case4 begun chunk rest hdrop ih =>
    have hchunk : 10 ∉ chunk := by
      intro hmem
      have hne := List.dropWhile_eq_nil_iff.mp hdrop 10 hmem
      simp at hne
    have hbytes : begun ++ (Content.ofDeliveries (.data chunk :: rest)).bytes =
        begun ++ chunk ++ (Content.ofDeliveries rest).bytes := (List.append_assoc ..).symm
    rw [hbytes]
    exact ih fun hmem => (List.mem_append.mp hmem).elim hbegun hchunk
  | case5 begun chunk rest b later hdrop =>
    have hb : b = 10 := by
      have hhead := List.head?_dropWhile_not (· ≠ 10) chunk
      rw [hdrop] at hhead
      simpa using hhead
    have hchunk : chunk = chunk.takeWhile (· ≠ 10) ++ 10 :: later := by
      have hsplit := List.takeWhile_append_dropWhile (p := (· ≠ 10)) (l := chunk)
      rw [hdrop, hb] at hsplit
      exact hsplit.symm
    have hfront : 10 ∉ chunk.takeWhile (· ≠ 10) := by
      intro hmem
      have hne := List.mem_takeWhile_imp hmem
      simp at hne
    refine Or.inl ⟨begun ++ chunk.takeWhile (· ≠ 10), .data later :: rest, ?_, rfl, ?_, rfl⟩
    · exact fun hmem => (List.mem_append.mp hmem).elim hbegun hfront
    · calc begun ++ (chunk ++ (Content.ofDeliveries rest).bytes)
          = begun ++ (chunk.takeWhile (· ≠ 10) ++ 10 :: later ++
              (Content.ofDeliveries rest).bytes) := by rw [← hchunk]
        _ = begun ++ chunk.takeWhile (· ≠ 10) ++ 10 ::
              (later ++ (Content.ofDeliveries rest).bytes) := by
          simp only [List.append_assoc, List.cons_append]

/-- The next line put together is the first line of the content, if it has one. -/
theorem nextLine_cases (coming : List Delivery) :
    (∃ line rest, nextLine coming = (some line, rest) ∧
        (Content.ofDeliveries coming).lines = line :: (Content.ofDeliveries rest).lines) ∨
      (∃ rest, nextLine coming = (none, rest) ∧ (Content.ofDeliveries coming).lines = []) ∨
      ∃ reason rest, nextLine coming = (some (.error (.failed reason)), rest) ∧
        (Content.ofDeliveries coming).lines = [.error (.failed reason)] := by
  obtain ⟨line, rest, hline, hraw, hbytes, hfailure⟩ | ⟨hbytes, hend⟩ :=
    rawLine_cases List.not_mem_nil coming
  · refine Or.inl ⟨decode (Content.dropReturn line), rest, ?_, ?_⟩
    · rw [nextLine, hraw]
      simp only [List.append_eq_nil_iff, List.cons_ne_nil, and_false, if_false, textOf_concat]
    · have hcontent : Content.ofDeliveries coming =
          ⟨line ++ 10 :: (Content.ofDeliveries rest).bytes,
            (Content.ofDeliveries rest).failure⟩ := by
        rw [← hbytes, ← hfailure]
        rfl
      rw [hcontent, Content.lines_append_lineFeed hline]
  · rw [List.nil_append] at hbytes hend
    have hlines : (Content.ofDeliveries coming).lines =
        Content.lastLine (Content.ofDeliveries coming).bytes
          (Content.ofDeliveries coming).failure := Content.lines_of_notMem hbytes _
    obtain ⟨hfailure, hraw⟩ | ⟨reason, rest, hfailure, hraw⟩ := hend
    · rw [hfailure, Content.lastLine] at hlines
      by_cases hnil : (Content.ofDeliveries coming).bytes = []
      · rw [if_pos hnil] at hlines
        exact Or.inr (Or.inl ⟨[], by simp only [nextLine, hraw, hnil, if_true], hlines⟩)
      · rw [if_neg hnil] at hlines
        refine Or.inl ⟨decode (Content.ofDeliveries coming).bytes, [], ?_, hlines⟩
        simp only [nextLine, hraw, hnil, if_false, textOf_of_notMem hbytes]
    · rw [hfailure, Content.lastLine] at hlines
      exact Or.inr (Or.inr ⟨reason, rest, by rw [nextLine, hraw], hlines⟩)

/-- The reading of what is still to come. -/
def reading (s : Feed) : Reading :=
  { format := s.format
    progress := s.progress
    pending := if s.ended then [] else (Content.ofDeliveries s.coming).lines }

@[simp] theorem stats_reading (s : Feed) : s.reading.stats = s.stats := rfl

/-- A feed is at first the reading of the content of its deliveries. -/
theorem reading_start (format : Format) (hours : Option UInt64) (deliveries : List Delivery) :
    (start format hours deliveries).reading =
      .start format hours (Content.ofDeliveries deliveries) := rfl

/-- A feed that has ended is a reading with nothing pending. -/
theorem next_reading_of_ended {s : Feed} (h : s.ended = true) :
    s.reading.next = (s.next.1, s.next.2.reading) := by
  have hpending : s.reading.pending = [] := by
    rw [reading, h]
    rfl
  rw [next_of_ended h, Reading.next_of_pending_eq_nil hpending]

/-- A feed goes on as the reading of what is still to come. -/
theorem next_reading (s : Feed) : s.reading.next = (s.next.1, s.next.2.reading) := by
  induction hsize : size s.coming using Nat.strongRecOn generalizing s with
  | ind n ih =>
    obtain ⟨format, p, coming, _ | _⟩ := s
    · have hpending : (reading ⟨format, p, coming, false⟩).pending =
          (Content.ofDeliveries coming).lines := rfl
      obtain ⟨line, rest, hline, hlines⟩ | ⟨rest, hline, hlines⟩ | ⟨reason, rest, hline, hlines⟩ :=
        nextLine_cases coming
      · rw [next_of_nextLine_eq_some rfl hline,
          Reading.next_of_pending_eq_cons (hpending.trans hlines)]
        have hlt : size rest < n := hsize ▸ size_nextLine_lt hline
        have hprogress : (reading ⟨format, p, coming, false⟩).progress = p := rfl
        have hformat : (reading ⟨format, p, coming, false⟩).format = format := rfl
        rw [hprogress, hformat]
        obtain ⟨effect, p'⟩ := p.take format line
        cases effect with
        | pass => exact ih (size rest) hlt ⟨format, p', rest, false⟩ rfl
        | give access => rfl
        | close => rfl
        | fail fault => rfl
      · rw [next_of_nextLine_eq_none rfl hline,
          Reading.next_of_pending_eq_nil (hpending.trans hlines), reading, hlines]
        rfl
      · rw [next_of_nextLine_eq_some rfl hline,
          Reading.next_of_pending_eq_cons (hpending.trans hlines)]
        rfl
    · exact next_reading_of_ended rfl

/-- However often a feed is asked, it stands for the reading that is asked as often. -/
theorem after_reading (s : Feed) (n : Nat) : (s.after n).reading = s.reading.after n := by
  induction n generalizing s with
  | zero => rfl
  | succ n ih => rw [after, Reading.after, next_reading, ih]

/-- How the bytes of a source are cut, and where its deliveries are interrupted, can not be seen: if
two sources deliver the same bytes, and neither fails or both fail for the same reason after them,
they are read in the same steps, with the same counters after each. -/
theorem deliveries_agree (format : Format) (hours : Option UInt64) {ds es : List Delivery}
    (h : Content.ofDeliveries ds = Content.ofDeliveries es) (n : Nat) :
    let s := (start format hours ds).after n
    let t := (start format hours es).after n
    s.next.1 = t.next.1 ∧ s.stats = t.stats := by
  intro s t
  have hreading : s.reading = t.reading := by
    rw [after_reading, after_reading, reading_start, reading_start, h]
  have hnext := next_reading s
  rw [hreading, next_reading t] at hnext
  refine ⟨(congrArg Prod.fst hnext).symm, ?_⟩
  rw [← stats_reading, hreading, stats_reading]

/-- A source is cut inside a character, inside a number and inside the end of a line. -/
theorem deliveries_agree_of_cut_character :
    let whole := [.data "0 1 é 8 16 R\r\n5 1 p 0 8 R\n".toUTF8.toList]
    let cut := [.data [48, 32, 49, 32, 195], .interrupted, .data [169, 32, 56, 32, 49],
      .data [54, 32, 82, 13], .interrupted, .interrupted,
      .data [10, 53, 32, 49, 32, 112, 32, 48, 32, 56, 32, 82, 10]]
    Content.ofDeliveries whole = Content.ofDeliveries cut ∧
      (start .fiu none whole).next.1 = (start .fiu none cut).next.1 ∧
      (start .fiu none whole).next.1 = .access ⟨8, 16, by decide⟩ ∧
      ((start .fiu none whole).after 2).stats = ((start .fiu none cut).after 2).stats ∧
      ((start .fiu none whole).after 2).stats = { lines := 2, empty := 0, closed := false } := by
  intro whole cut
  have h : Content.ofDeliveries whole = Content.ofDeliveries cut := by decide +kernel
  exact ⟨h, (deliveries_agree .fiu none h 0).1, by decide +kernel,
    (deliveries_agree .fiu none h 2).2, by decide +kernel⟩

/-- Asked again and again, the feed gives the accesses, then the fault, and then nothing more. -/
structure EndsWith (s : Feed) (given : List Access) (fault : ReadingFault) (final : Stats) :
    Prop where
  /-- What is given. -/
  steps : ∀ n, (s.after n).next.1 =
    (given.map Step.access ++ [.fault fault])[n]?.getD .finished
  /-- The counters once the fault has been given. -/
  counters : ∀ n, given.length < n → (s.after n).stats = final

/-- A feed ends as the reading of its content does. -/
theorem endsWith_of_lines {format : Format} {hours : Option UInt64} {deliveries : List Delivery}
    {good more : List (Except Content.Fault String)} {e : Content.Fault}
    (hlines : (Content.ofDeliveries deliveries).lines = good ++ .error e :: more)
    (hgo : ∀ v ∈ Line.verdicts format hours.isSome good,
      Line.ends (Line.deadline format hours (Line.verdicts format hours.isSome good)) v = false) :
    (start format hours deliveries).EndsWith
      ((Line.verdicts format hours.isSome good).filterMap Line.access?) (.content e)
      { lines := good.length
        empty := (Line.verdicts format hours.isSome good).countP Line.isEmpty
        closed := false } := by
  obtain ⟨hnext, hstats⟩ := Reading.next_after_start_of_fault hlines hgo
  constructor
  · intro n
    rw [← hnext n, ← reading_start, ← after_reading, next_reading]
  · intro n hn
    rw [← hstats n hn, ← reading_start, ← after_reading, stats_reading]

/-- If no terminated line before a failure ends the reading, the accesses on these lines are given,
then the failure is, and then nothing more; the bytes after the last line feed are lost, whatever
they are. The same holds of a line that is no text. In no case is anything used that is delivered
after a failure. -/
theorem ends_with_content_fault (format : Format) (hours : Option UInt64) {complete : List UInt8}
    (hcomplete : Content.Terminated complete) :
    let good := Content.lines ⟨complete, none⟩
    let vs := Line.verdicts format hours.isSome good
    let given := vs.filterMap Line.access?
    let final : Stats :=
      { lines := good.length, empty := vs.countP Line.isEmpty, closed := false }
    (∀ before reason later n, (Content.ofDeliveries before).failure = none →
        let s := (start format hours (before ++ .failed reason :: later)).after n
        let t := (start format hours (before ++ [.failed reason])).after n
        s.next.1 = t.next.1 ∧ s.stats = t.stats) ∧
      ((∀ v ∈ vs, Line.ends (Line.deadline format hours vs) v = false) →
        (∀ before rest reason later, Content.ofDeliveries before = ⟨complete ++ rest, none⟩ →
            10 ∉ rest →
            (start format hours (before ++ .failed reason :: later)).EndsWith given
              (.content (.failed reason)) final) ∧
          ∀ deliveries bad tail failure,
            Content.ofDeliveries deliveries = ⟨complete ++ (bad ++ tail), failure⟩ →
            10 ∉ bad → ¬ bad.toByteArray.IsValidUTF8 →
            tail.head? = some 10 ∨ tail = [] ∧ failure = none →
            (start format hours deliveries).EndsWith given (.content .notText) final) := by
  intro good vs given final
  have hlines (content : Content) :
      Content.lines ⟨complete ++ content.bytes, content.failure⟩ = good ++ content.lines :=
    Content.lines_append hcomplete content
  refine ⟨?_, fun hgo => ⟨?_, ?_⟩⟩
  · intro before reason later n hbefore
    apply deliveries_agree
    rw [Content.ofDeliveries_append_of_failure_eq_none hbefore,
      Content.ofDeliveries_append_of_failure_eq_none hbefore]
    rfl
  · intro before rest reason later hbefore hrest
    have hnone : (Content.ofDeliveries before).failure = none := by rw [hbefore]
    have hsplit := hlines ⟨rest, some reason⟩
    rw [Content.lines_of_notMem hrest, Content.lastLine] at hsplit
    have htorn : (Content.ofDeliveries (before ++ .failed reason :: later)).lines =
        good ++ [.error (.failed reason)] := by
      rw [Content.ofDeliveries_append_of_failure_eq_none hnone, hbefore]
      simpa only [Content.ofDeliveries, List.append_nil] using hsplit
    exact endsWith_of_lines htorn hgo
  · intro deliveries bad tail failure hcontent hbad hutf8 htail
    have hdecode : decode bad = .error .notText := Content.decode_eq_notText_iff.mpr hutf8
    have hsplit := hlines ⟨bad ++ tail, failure⟩
    rw [← hcontent] at hsplit
    rcases htail with hhead | ⟨rfl, rfl⟩
    · obtain ⟨tail, rfl⟩ := List.head?_eq_some_iff.mp hhead
      rw [Content.lines_append_lineFeed hbad, Content.decode_dropReturn, hdecode] at hsplit
      exact endsWith_of_lines hsplit hgo
    · have hne : bad ≠ [] := by
        rintro rfl
        exact hutf8 ⟨[], rfl⟩
      rw [List.append_nil, Content.lines_of_notMem hbad, Content.lastLine, if_neg hne,
        hdecode] at hsplit
      exact endsWith_of_lines hsplit hgo

/-- The second line is torn by a failure, and would not have been text. -/
theorem ends_with_content_fault_of_torn_line :
    let complete := "0 1 p 0 8 R\n1 1 p 0 0 W\n".toUTF8.toList
    let before := [.data (complete ++ [50]), .interrupted, .data [32, 255]]
    let later := [.data "2 1 p 8 8 R\n".toUTF8.toList]
    let vs := Line.verdicts .fiu true (Content.lines ⟨complete, none⟩)
    Content.Terminated complete ∧
      (∀ v ∈ vs, Line.ends (Line.deadline .fiu (some 1) vs) v = false) ∧
      Content.ofDeliveries before = ⟨complete ++ [50, 32, 255], none⟩ ∧
      (start .fiu (some 1) (before ++ .failed "disk on fire" :: later)).EndsWith
        [⟨0, 8, by decide⟩] (.content (.failed "disk on fire"))
        { lines := 2, empty := 1, closed := false } := by
  intro complete before later vs
  have hcomplete : Content.Terminated complete := Or.inr (by decide +kernel)
  have hgo : ∀ v ∈ vs, Line.ends (Line.deadline .fiu (some 1) vs) v = false := by
    have hall : vs.all fun v => !Line.ends (Line.deadline .fiu (some 1) vs) v := by
      decide +kernel
    simpa only [List.all_eq_true, Bool.not_eq_true'] using hall
  have hbefore : Content.ofDeliveries before = ⟨complete ++ [50, 32, 255], none⟩ := by
    decide +kernel
  have hends := ((ends_with_content_fault .fiu (some 1) hcomplete).2 hgo).1 before [50, 32, 255]
    "disk on fire" later hbefore (by decide)
  refine ⟨hcomplete, hgo, hbefore, ?_⟩
  convert hends using 1 <;> decide +kernel

end Feed

end Footprint

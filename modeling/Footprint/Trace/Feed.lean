import Footprint.Trace.Reading
import Footprint.Trace.Source

/-!
# Feeds

A feed is a trace that is read while it is still being delivered. A line is asked
for only when it is needed, and is put together from as many deliveries as it
takes: interruptions are passed over, and what a delivery holds after the line feed
is kept for the next line. The bytes of a line are text as a whole or not at all,
and its terminator is dropped from the text. Once a feed has ended it asks for
nothing more, whatever may still be delivered.
-/

namespace Footprint

/-- A trace being read from its deliveries. -/
structure Feed where
  /-- The format of the lines. -/
  format : Format
  /-- Where the reading stands. -/
  progress : Progress
  /-- What has not been read of the deliveries. -/
  coming : List Delivery
  /-- Nothing more is asked for. -/
  ended : Bool

namespace Feed

/-- A bound on the lines that deliveries can still give. -/
def size : List Delivery → Nat
  | [] => 0
  | .data bytes :: rest => bytes.length + 1 + size rest
  | .interrupted :: rest => 1 + size rest
  | .failed _ :: rest => 1 + size rest

/-- The bytes of the line that has begun with the given bytes, its line feed included, or the reason
why they could not be delivered; and the deliveries after it. There are no bytes only at the end. -/
def rawLine (begun : List UInt8) : List Delivery → Except String (List UInt8) × List Delivery
  | [] => (.ok begun, [])
  | .interrupted :: rest => rawLine begun rest
  | .failed reason :: rest => (.error reason, rest)
  | .data bytes :: rest =>
    match bytes.dropWhile (· ≠ 10) with
    | [] => rawLine (begun ++ bytes) rest
    | _ :: later => (.ok (begun ++ bytes.takeWhile (· ≠ 10) ++ [10]), .data later :: rest)

/-- The characters of a line without the line feed at its end and one carriage return before it. -/
def chomp (cs : List Char) : List Char :=
  if cs.getLast? = some '\n' then
    if cs.dropLast.getLast? = some '\r' then cs.dropLast.dropLast else cs.dropLast
  else cs

/-- The text of a line, or why its bytes are none. -/
def textOf (bytes : List UInt8) : Except Content.Fault String :=
  (Content.decode bytes).map fun text => String.ofList (chomp text.toList)

/-- The next line, unless the end has come, and the deliveries after it. -/
def nextLine (coming : List Delivery) : Option (Except Content.Fault String) × List Delivery :=
  match rawLine [] coming with
  | (.ok bytes, rest) => (if bytes = [] then none else some (textOf bytes), rest)
  | (.error reason, rest) => (some (.error (.failed reason)), rest)

/-- Putting a line together creates no bytes. -/
theorem length_rawLine_le (begun : List UInt8) (coming : List Delivery) {bytes : List UInt8}
    {rest : List Delivery} (h : rawLine begun coming = (.ok bytes, rest)) :
    bytes.length + size rest ≤ begun.length + size coming := by
  fun_induction rawLine begun coming with
  | case1 begun =>
    cases h
    exact Nat.le_refl _
  | case2 begun rest ih =>
    have hle := ih h
    simp only [size]
    omega
  | case3 => cases h
  | case4 begun chunk rest hdrop ih =>
    have hle := ih h
    simp only [List.length_append] at hle
    simp only [size]
    omega
  | case5 begun chunk rest _ later hdrop =>
    cases h
    have hchunk := congrArg List.length
      (List.takeWhile_append_dropWhile (p := (· ≠ 10)) (l := chunk))
    rw [hdrop] at hchunk
    simp only [List.length_append, List.length_cons, List.length_nil, size] at hchunk ⊢
    omega

/-- A failure is used up. -/
theorem size_rawLine_lt (begun : List UInt8) (coming : List Delivery) {reason : String}
    {rest : List Delivery} (h : rawLine begun coming = (.error reason, rest)) :
    size rest < size coming := by
  fun_induction rawLine begun coming with
  | case1 => cases h
  | case2 begun rest ih =>
    have hlt := ih h
    simp only [size]
    omega
  | case3 =>
    cases h
    simp only [size]
    omega
  | case4 begun chunk rest hdrop ih =>
    have hlt := ih h
    simp only [size]
    omega
  | case5 => cases h

/-- A line uses up some of the deliveries. -/
theorem size_nextLine_lt {coming rest : List Delivery} {line : Except Content.Fault String}
    (h : nextLine coming = (some line, rest)) : size rest < size coming := by
  unfold nextLine at h
  split at h
  · rename_i bytes rest' hraw
    have hle := length_rawLine_le [] coming hraw
    split at h
    · cases h
    · rename_i hne
      cases h
      have hpos := List.length_pos_iff.mpr hne
      simp only [List.length_nil] at hle
      omega
  · rename_i hraw
    cases h
    exact size_rawLine_lt [] coming hraw

/-- A feed of the given deliveries, limited to the first hours if hours are given. -/
def start (format : Format) (hours : Option UInt64) (deliveries : List Delivery) : Feed :=
  { format, progress := .start (hours.map (Window.ofHours format)), coming := deliveries
    ended := false }

/-- The counters. -/
def stats (s : Feed) : Stats :=
  s.progress.stats

/-- Go on to the next access, the fault or the end. -/
def next (s : Feed) : Step × Feed :=
  if s.ended then (.finished, s)
  else
    match h : nextLine s.coming with
    | (none, rest) => (.finished, { s with coming := rest, ended := true })
    | (some line, rest) =>
      have : size rest < size s.coming := size_nextLine_lt h
      match s.progress.take s.format line with
      | (.pass, p) => next { s with progress := p, coming := rest }
      | (.give access, p) => (.access access, { s with progress := p, coming := rest })
      | (.close, p) => (.finished, { s with progress := p, coming := rest, ended := true })
      | (.fail fault, p) => (.fault fault, { s with progress := p, coming := rest, ended := true })
termination_by size s.coming

/-- The feed after it has been asked so often to go on. -/
def after (s : Feed) : Nat → Feed
  | 0 => s
  | n + 1 => s.next.2.after n

/-- A feed that has ended stays as it is. -/
theorem next_of_ended {s : Feed} (h : s.ended = true) : s.next = (.finished, s) := by
  rw [next, if_pos h]

/-- A feed without a further line ends. -/
theorem next_of_nextLine_eq_none {s : Feed} {rest : List Delivery} (h : s.ended = false)
    (hline : nextLine s.coming = (none, rest)) :
    s.next = (.finished, { s with coming := rest, ended := true }) := by
  rw [next, h, if_neg Bool.false_ne_true]
  split
  · rename_i he
    cases hline.symm.trans he
    rfl
  · rename_i he
    cases hline.symm.trans he

/-- What the next line does decides how a feed goes on. -/
theorem next_of_nextLine_eq_some {s : Feed} {line : Except Content.Fault String}
    {rest : List Delivery} (h : s.ended = false)
    (hline : nextLine s.coming = (some line, rest)) :
    s.next =
      match s.progress.take s.format line with
      | (.pass, p) => Feed.next { s with progress := p, coming := rest }
      | (.give access, p) => (.access access, { s with progress := p, coming := rest })
      | (.close, p) => (.finished, { s with progress := p, coming := rest, ended := true })
      | (.fail fault, p) =>
        (.fault fault, { s with progress := p, coming := rest, ended := true }) := by
  rw [next, h, if_neg Bool.false_ne_true]
  split
  · rename_i he
    cases hline.symm.trans he
  · rename_i he
    cases hline.symm.trans he
    rfl

end Feed

end Footprint

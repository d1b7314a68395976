import Footprint.Proofs.CommandLine.Reports
import Footprint.Proofs.Json.Forms

/-!
# Reports are read back

A report is one object whose members have distinct names, so each of them is found by its name.
The members of the totals are among them, so the whole text is read as the totals, and the path of
the trace is found under its name as it was given, whatever characters it holds. A reader that
knows nothing but the names of the members finds everything that was reported.
-/

namespace Footprint

namespace Json

/-- The number that a value is, however large it is. -/
def number? : Json → Option Nat
  | .leaf (.number written) => Text.numeral? written
  | _ => none

/-- What a value is read as, or nothing if the value is null. -/
def orNull? {α : Type} (read? : Json → Option α) : Json → Option (Option α)
  | .leaf .null => some none
  | j => (read? j).map some

/-- What the only member of a name is read as. -/
def member? {α : Type} (named : List (List Char × Json)) (name : String)
    (read? : Json → Option α) : Option α :=
  (only? name.toList named).bind read?

/-- The only member of a name is read as its value is. -/
theorem member?_of_only? {α : Type} {named : List (List Char × Json)} {name : String} {j : Json}
    (h : only? name.toList named = some j) (read? : Json → Option α) :
    member? named name read? = read? j := by
  rw [member?, h, Option.bind_some]

/-- A number is read from its own leaf. -/
theorem number?_ofNat (n : Nat) : number? (.leaf (.ofNat n)) = some n :=
  Text.numeral?_toDigits n

/-- A word that may be missing is read from its own leaf or from null. -/
theorem orNull?_word (w : Option UInt64) :
    orNull? word? (.leaf ((w.map Leaf.ofWord).getD .null)) = some w := by
  cases w with
  | none => rfl
  | some w =>
    have hword : orNull? word? (.leaf (.ofWord w)) = (word? (.leaf (.ofWord w))).map some := rfl
    rw [Option.map_some, Option.getD_some, hword, Leaf.word?_ofWord, Option.map_some]

/-- A name is read from its own leaf. -/
theorem name?_ofText (s : String) : name? (.leaf (.ofText s)) = some s := by
  rw [Leaf.ofText, name?, unescape?_escape, Option.map_some, String.ofList_toList]

end Json

open Json

/-- A format is read from its own leaf. -/
theorem Format.ofJson?_toLeaf (f : Format) : Format.ofJson? (.leaf f.toLeaf) = some f := by
  rw [Format.ofJson?, Format.toLeaf, name?_ofText, Option.bind_some, Format.ofName?_eq_some_iff]

/-- A cache mode is read from its own leaf. -/
theorem CacheMode.ofJson?_toLeaf (m : CacheMode) : CacheMode.ofJson? (.leaf m.toLeaf) = some m := by
  rw [CacheMode.ofJson?, CacheMode.toLeaf, name?_ofText, Option.bind_some,
    CacheMode.ofName?_eq_some_iff]

/-- The counters of a reading that members tell under these names. -/
def Stats.ofMembers? (named : List (List Char × Json)) : Option Stats := do
  return {
    lines := ← member? named "lines" number?
    empty := ← member? named "empty_records" number?
    closed := ← member? named "window_closed" bool? }

namespace Report

/-- The report that the members of an object tell under these names. -/
def ofJson? (j : Json) : Option Report := do
  let named ← j.members?
  return {
    trace := String.ofList (← member? named "trace" text?)
    format := ← member? named "format" Format.ofJson?
    mode := ← member? named "cache_mode" CacheMode.ofJson?
    hours := ← member? named "duration_hours" (orNull? word?)
    stats := ← Stats.ofMembers? named
    totals := ← Totals.ofJson? j }

/-- The report that a text tells. -/
def read? (text : String) : Option Report :=
  (parse? text.toList).bind ofJson?

/-- The values of a report can be read. -/
theorem isWritten_of_mem {r : Report} {m : String × Leaf} (h : m ∈ r.toRecord) :
    m.2.IsWritten := by
  rcases List.mem_append.mp h with hmeasured | htotals
  · have hhours : ((r.hours.map Leaf.ofWord).getD .null).IsWritten := by
      cases r.hours with
      | none => trivial
      | some h => exact Leaf.isWritten_ofWord h
    simp only [List.mem_cons, List.not_mem_nil, or_false] at hmeasured
    rcases hmeasured with rfl | rfl | rfl | rfl | rfl | rfl | rfl
    · exact Leaf.isWritten_ofText _
    · exact Leaf.isWritten_ofText _
    · exact Leaf.isWritten_ofText _
    · exact hhours
    · exact Leaf.isWritten_ofNat _
    · exact Leaf.isWritten_ofNat _
    · trivial
  · exact Totals.isWritten_of_mem htotals

/-- The names of the members of a report are distinct. -/
theorem nodup_names (r : Report) : (r.toRecord.map (·.1)).Nodup := by
  simp [toRecord, Totals.toRecord]

/-- The text of a report is written with the tokens of its object. -/
theorem spells_render (r : Report) : Spells r.toRecord.toJson.tokens r.render.toList := by
  have hnewline : ∀ c ∈ ['\n'], Scan.isSpace c = true := List.all_eq_true.mp rfl
  rw [render, String.toList_ofList]
  exact (Record.spells_pretty fun _ => isWritten_of_mem).append_spaces hnewline

/-- The text of a report is read as its object, and every member of the report is the only one of
its name in it. -/
theorem parse?_render (r : Report) :
    parse? r.render.toList = some r.toRecord.toJson ∧
      r.toRecord.toJson.members? = some r.toRecord.named ∧
      ∀ m ∈ r.toRecord, only? m.1.toList r.toRecord.named = some (.leaf m.2) :=
  ⟨parse?_of_spells r.spells_render, Record.members?_toJson _,
    fun _ hm => Record.only?_named r.nodup_names hm⟩

/-- A report is found in an object that holds each of its members once. -/
theorem ofJson?_object {r : Report} {members named : List (List Char × Json)}
    (hnamed : (Json.object members).members? = some named)
    (honly : ∀ m ∈ r.toRecord, only? m.1.toList named = some (.leaf m.2)) :
    ofJson? (.object members) = some r := by
  have htotals : Totals.ofJson? (.object members) = some r.totals :=
    Totals.ofJson?_object hnamed fun m hm => honly m (List.mem_append_right _ hm)
  simp only [toRecord, List.forall_mem_append, List.forall_mem_cons] at honly
  obtain ⟨⟨htrace, hformat, hmode, hhours, hlines, hempty, hclosed, _⟩, _⟩ := honly
  have hstats : Stats.ofMembers? named = some r.stats := by
    simp only [Stats.ofMembers?, member?_of_only? hlines, member?_of_only? hempty,
      member?_of_only? hclosed, number?_ofNat, bool?, Option.bind_eq_bind, Option.bind_some,
      Option.pure_def]
  simp only [ofJson?, hnamed, member?_of_only? htrace, member?_of_only? hformat,
    member?_of_only? hmode, member?_of_only? hhours, Leaf.text?_ofText, Format.ofJson?_toLeaf,
    CacheMode.ofJson?_toLeaf, orNull?_word, hstats, htotals, Option.bind_eq_bind,
    Option.bind_some, Option.pure_def, String.ofList_toList]

/-- The text of a report tells the report, each of its members under its own name. -/
theorem read?_render (r : Report) : read? r.render = some r := by
  obtain ⟨hparse, hmembers, honly⟩ := r.parse?_render
  rw [read?, hparse, Option.bind_some]
  exact ofJson?_object hmembers honly

/-- A report that has been saved is found as its text. -/
theorem openFile_of_saveReport {r : Report} {w after : World} {path : String}
    (h : (Program.saveReport World.host path r).run w = (.ok (), after)) :
    after.disk.openFile path = .ok (.ofText r.render) := by
  by_cases hwrite : w.CanWrite path
  · obtain ⟨disk, hsave, hread⟩ := Program.saveReport_of_canWrite hwrite r
    cases hsave.symm.trans h
    exact hread
  · obtain ⟨f, failed, _, hfails⟩ := Program.saveReport_of_not_canWrite hwrite
    cases (hfails r).symm.trans h

end Report

/-- A file at a path is the text of a report, and this report is what the text tells. -/
def World.HasReport (w : World) (path : String) (r : Report) : Prop :=
  w.disk.openFile path = .ok (.ofText r.render) ∧ Report.read? r.render = some r

/-- The text of a report tells the report wherever it is found. -/
theorem World.hasReport_of_openFile {w : World} {path : String} {r : Report}
    (h : w.disk.openFile path = .ok (.ofText r.render)) : w.HasReport path r :=
  ⟨h, r.read?_render⟩

namespace Report

/-- The text of every report is one object whose members have distinct names. The whole of it is
read as the totals that were reported, its member for the trace is the path as given, and a
report that has been saved on a disk is found there as this text. -/
theorem reread_report (r : Report) :
    (∃ members named, Spells (Json.object members).tokens r.render.toList ∧
      parse? r.render.toList = some (.object members) ∧
      (Json.object members).members? = some named ∧ (named.map (·.1)).Nodup ∧
      Totals.ofJson? (.object members) = some r.totals ∧
      (only? "trace".toList named).bind text? = some r.trace.toList) ∧
    ∀ (w after : World) (path : String),
      (Program.saveReport World.host path r).run w = (.ok (), after) →
        after.disk.openFile path = .ok (.ofText r.render) := by
  constructor
  · obtain ⟨hparse, hmembers, honly⟩ := r.parse?_render
    have htrace : ("trace", Leaf.ofText r.trace) ∈ r.toRecord := List.mem_cons_self
    refine ⟨_, r.toRecord.named, r.spells_render, hparse, hmembers,
      Record.nodup_named r.nodup_names, ?_, ?_⟩
    · exact Totals.ofJson?_object hmembers fun m hm => honly m (List.mem_append_right _ hm)
    · rw [honly _ htrace, Option.bind_some, Leaf.text?_ofText]
  · intro w after path hsave
    exact openFile_of_saveReport hsave

end Report

end Footprint

import Footprint.Proofs.CommandLine.Failures
import Footprint.Proofs.CommandLine.ReportText
import Footprint.Proofs.Measurement.Collected
import Footprint.Proofs.Measurement.Lines

/-!
# What a run reports

A run succeeds just if the trace can be opened, everything that is read from it can be
counted, and the report can be written if one is asked for. It then prints the number
counted, and its report, read back by the names of its members, tells the counters of the same
reading and the same tally. Where the content of the trace comes from is seen only in the path
that reports and failures name, and of the cache mode it is only seen whether it is `dm-cache`.
-/

namespace Footprint

/-- The trace can be opened, its reading ends without a fault, and all accesses that were read can
be counted; these are the counters of the reading and of the tally then. -/
def World.Measures (w : World) (s : Settings) (stats : Stats) (totals : Totals) : Prop :=
  ∃ content last tally,
    w.source s.trace = .ok content ∧
      (Reading.start s.format s.hours content).ending = (.finished, last) ∧
      (Reading.start s.format s.hours content).accesses.foldlM Tally.add
        (.start s.format (.ofArgument s.cacheMode)) = .ok tally ∧
      stats = last.stats ∧ totals = tally.totals

namespace Program

variable {world : World} {s : Settings}

/-- Measuring a trace access by access gives what reading it and then counting gives. -/
theorem measures_iff {stats : Stats} {totals : Totals} :
    world.Measures s stats totals ↔
      ∃ content, world.source s.trace = .ok content ∧
        let m := Measurement.run s.format s.mode s.hours content
        m.fault = none ∧ stats = m.stats ∧ totals = m.totals := by
  constructor
  · rintro ⟨content, last, tally, hsource, hending, hadded, rfl, rfl⟩
    have hrun : Measurement.run s.format s.mode s.hours content = ⟨last, tally, none⟩ :=
      Measurement.finish_eq_iff.mpr ⟨hending, hadded⟩
    refine ⟨content, hsource, ?_⟩
    rw [hrun]
    exact ⟨rfl, rfl, rfl⟩
  · rintro ⟨content, hsource, hfault, rfl, rfl⟩
    have hrun : Measurement.run s.format s.mode s.hours content =
        ⟨(Measurement.run s.format s.mode s.hours content).reading,
          (Measurement.run s.format s.mode s.hours content).tally, none⟩ := by
      rw [← hfault]
    obtain ⟨hending, hadded⟩ := Measurement.finish_eq_iff.mp hrun
    exact ⟨content, _, _, hsource, hending, hadded, rfl, rfl⟩

/-- A run whose trace is measured and whose report can be written prints the footprint and leaves
behind a report that tells the measurement. -/
theorem run_perform_of_canWrite {content : Content} (h : world.source s.trace = .ok content)
    (hfault : (Measurement.run s.format s.mode s.hours content).fault = none)
    (hwrite : ∀ path, s.report = some path → world.CanWrite path) :
    let m := Measurement.run s.format s.mode s.hours content
    ∃ disk, (perform World.host s).run world =
        (.success (toString m.totals.footprint.toNat ++ "\n"), { world with disk }) ∧
      ∀ path, s.report = some path →
        World.HasReport { world with disk } path (reportOf s m) := by
  intro m
  obtain ⟨disk, hsave, hread⟩ := saveReport?_of_canWrite hwrite m
  refine ⟨disk, run_perform_of_saved (run_measurement_of_measured h hfault) hsave, ?_⟩
  intro path hreport
  exact World.hasReport_of_openFile (hread path hreport)

/-- A run that measures succeeds just if it can do everything that it is asked for. -/
theorem code_eq_zero_iff (world : World) (s : Settings) :
    ((perform World.host s).run world).1.code = 0 ↔
      (∃ stats totals, world.Measures s stats totals) ∧
        ∀ path, s.report = some path → world.CanWrite path := by
  have hfailed {f : Failure} {after : World}
      (h : (perform World.host s).run world = (.failure f, after)) :
      ((perform World.host s).run world).1.code ≠ 0 := by
    rw [h]
    exact nofun
  constructor
  · intro hcode
    cases hsource : world.source s.trace with
    | error e =>
      exact absurd hcode (hfailed (run_perform_of_error (run_measurement_of_unopened hsource)))
    | ok content =>
      cases hfault : (Measurement.run s.format s.mode s.hours content).fault with
      | some fault =>
        exact absurd hcode
          (hfailed (run_perform_of_error (run_measurement_of_fault hsource hfault)))
      | none =>
        refine ⟨⟨_, _, measures_iff.mpr ⟨content, hsource, hfault, rfl, rfl⟩⟩, ?_⟩
        intro path hreport
        by_contra hwrite
        obtain ⟨f, after, _, hsave⟩ := saveReport?_of_not_canWrite hreport hwrite
        exact hfailed (run_perform_of_unsaved (run_measurement_of_measured hsource hfault)
          (hsave s.trace _)) hcode
  · rintro ⟨⟨stats, totals, hmeasures⟩, hwrite⟩
    obtain ⟨content, hsource, hfault, _, _⟩ := measures_iff.mp hmeasures
    obtain ⟨disk, hrun, _⟩ := run_perform_of_canWrite hsource hfault hwrite
    rw [hrun]
    rfl

/-- A failed measurement of the same content from elsewhere differs in the path of the trace. -/
theorem withTrace_failureOf (path trace : String) (fault : MeasurementFault) :
    (failureOf path fault).withTrace trace = failureOf trace fault := by
  cases fault <;> rfl

/-- If the content of the trace comes on standard input instead, the run ends in the same way: it
prints the same result, and its report differs in the path of the trace, or it fails for the same
reason and leaves the same disk behind. -/
theorem run_perform_piped {content : Content} (h : world.source s.trace = .ok content) :
    let here := (perform World.host s).run world
    let piped := (perform World.host { s with trace := "-" }).run { world with input := content }
    (here.1.code = 0 ∧ piped.1 = here.1 ∧ ∀ path, s.report = some path →
        ∃ report : Report, report.trace = s.trace ∧
          here.2.HasReport path report ∧ piped.2.HasReport path { report with trace := "-" }) ∨
      ∃ f : Failure, f.withTrace s.trace = f ∧ here.1 = .failure f ∧
        piped.1 = .failure (f.withTrace "-") ∧ piped.2.disk = here.2.disk := by
  intro here piped
  have hinput : World.source { world with input := content } "-" = .ok content := by
    rw [World.source, if_pos rfl]
  let m := Measurement.run s.format s.mode s.hours content
  cases hfault : m.fault with
  | some fault =>
    have hhere : here = (.failure (failureOf s.trace fault), world) :=
      run_perform_of_error (run_measurement_of_fault h hfault)
    have hpiped : piped = (.failure (failureOf "-" fault), { world with input := content }) :=
      run_perform_of_error (run_measurement_of_fault hinput hfault)
    rw [hhere, hpiped]
    refine Or.inr ⟨failureOf s.trace fault, withTrace_failureOf .., rfl, ?_, rfl⟩
    rw [withTrace_failureOf]
  | none =>
    have hmeasured : (measurement World.host { s with trace := "-" }).run
        { world with input := content } = (.ok m, { world with input := content }) :=
      run_measurement_of_measured hinput hfault
    -- Saving the report sees the disk only, so it can be followed on the world of the file.
    have hdisk := onDisk_saveReport? { s with trace := "-" } m
    by_cases hwrite : ∀ path, s.report = some path → world.CanWrite path
    · obtain ⟨disk, hrun, hread⟩ := run_perform_of_canWrite h hfault hwrite
      obtain ⟨disk', hsave, hread'⟩ :=
        saveReport?_of_canWrite (s := { s with trace := "-" }) hwrite m
      have hhere : here = _ := hrun
      have hpiped : piped = _ := run_perform_of_saved hmeasured (hdisk.run_input hsave content)
      rw [hhere, hpiped]
      refine Or.inl ⟨rfl, rfl, fun path hreport => ⟨reportOf s m, rfl, hread path hreport, ?_⟩⟩
      exact World.hasReport_of_openFile (hread' path hreport)
    · obtain ⟨path, hpath⟩ := not_forall.mp hwrite
      obtain ⟨hreport, hwrite⟩ := Classical.not_imp.mp hpath
      obtain ⟨f, after, htrace, hsave⟩ := saveReport?_of_not_canWrite hreport hwrite
      have hhere : here = (.failure f, after) :=
        run_perform_of_unsaved (run_measurement_of_measured h hfault) (hsave s.trace m)
      have hpiped : piped = (.failure f, { after with input := content }) :=
        run_perform_of_unsaved hmeasured (hdisk.run_input (hsave "-" m) content)
      rw [hhere, hpiped]
      exact Or.inr ⟨f, htrace s.trace, rfl, by rw [htrace], rfl⟩

/-- Of the cache mode a run only sees which mode it chooses. -/
theorem perform_congr_mode {m : Type → Type} [Monad m] (host : Host m) (s : Settings)
    {cacheMode : Option String} (h : CacheMode.ofArgument cacheMode = .ofArgument s.cacheMode) :
    perform host { s with cacheMode } = perform host s := by
  have hmode : Settings.mode { s with cacheMode } = s.mode := h
  simp only [perform, measurement, saveReport?, reportOf, hmode]

/-- Every cache mode but `dm-cache` chooses the exact mode. -/
theorem ofArgument_of_ne {cacheMode : Option String} (h : cacheMode ≠ some "dm-cache") :
    CacheMode.ofArgument cacheMode = .exact := by
  unfold CacheMode.ofArgument
  split
  · exact absurd rfl h
  · rfl

/-- A run with accepted arguments succeeds just if the trace opens, its reading ends without a
fault and all accesses on it can be counted, and the report can be written if one is asked for. Its
output is then the footprint as a decimal number with a line feed, and its report, read back by the
names of its members, tells the settings and the counters of the same reading and tally. With the
content of a file on standard input instead, the run ends in the same way but for the path of the
trace in the report or in the failure. All cache modes other than `dm-cache` make the same run, as
does none. -/
theorem result_of_accepted {arguments : List String} {s : Settings}
    (hs : Arguments.parse arguments = .measure s) (world : World) :
    let here := (run World.host arguments).run world
    (here.1.code = 0 ↔
        (∃ stats totals, world.Measures s stats totals) ∧
          ∀ path, s.report = some path → world.CanWrite path) ∧
      (here.1.code = 0 → ∀ stats totals, world.Measures s stats totals →
        here.1.output = toString totals.footprint.toNat ++ "\n" ∧
          ∀ path, s.report = some path →
            here.2.HasReport path
              { trace := s.trace, format := s.format, mode := .ofArgument s.cacheMode,
                hours := s.hours, stats, totals }) ∧
      (∀ others content, Arguments.parse others = .measure { s with trace := "-" } →
        s.trace ≠ "-" → world.disk.openFile s.trace = .ok content →
        let piped := (run World.host others).run { world with input := content }
        (here.1.code = 0 ∧ piped.1 = here.1 ∧ ∀ path, s.report = some path →
            ∃ report : Report, report.trace = s.trace ∧
              here.2.HasReport path report ∧
              piped.2.HasReport path { report with trace := "-" }) ∨
          ∃ f : Failure, f.withTrace s.trace = f ∧ here.1 = .failure f ∧
            piped.1 = .failure (f.withTrace "-") ∧ piped.2.disk = here.2.disk) ∧
      ∀ others cacheMode, Arguments.parse others = .measure { s with cacheMode } →
        s.cacheMode ≠ some "dm-cache" → cacheMode ≠ some "dm-cache" →
        (run World.host others).run world = here := by
  intro here
  have hhere : here = (perform World.host s).run world := by
    rw [← run_of_measure World.host hs]
  refine ⟨?_, fun hcode stats totals hmeasures => ?_, fun others content hothers hfile hsource => ?_,
    fun others cacheMode hothers hmode hmode' => ?_⟩
  · rw [hhere]
    exact code_eq_zero_iff world s
  · rw [hhere] at hcode ⊢
    obtain ⟨_, hwrite⟩ := (code_eq_zero_iff world s).mp hcode
    obtain ⟨content, hsource, hfault, rfl, rfl⟩ := measures_iff.mp hmeasures
    obtain ⟨disk, hsuccess, hread⟩ := run_perform_of_canWrite hsource hfault hwrite
    rw [hsuccess]
    exact ⟨rfl, hread⟩
  · intro piped
    have hpiped : piped = (perform World.host { s with trace := "-" }).run
        { world with input := content } := by
      rw [← run_of_measure World.host hothers]
    rw [hhere, hpiped]
    apply run_perform_piped
    rw [World.source, if_neg hfile, hsource]
  · rw [hhere, run_of_measure World.host hothers, perform_congr_mode World.host s]
    rw [ofArgument_of_ne hmode, ofArgument_of_ne hmode']

/-- Two pages, counted from a file and from standard input, with a report in a new directory. -/
theorem result_of_accepted_of_two_pages :
    let content := Content.ofText "5 1 p 0 9 R\n6 1 p 8 8 W\n"
    let world : World :=
      { disk := { nodes := [(["t"], .file content.bytes)], current := [] }, input := ⟨[], none⟩ }
    let s : Settings :=
      { trace := "t", format := .fiu, cacheMode := some "-x", hours := none, report := some "out/r" }
    let here := (run World.host ["t", "fiu", "-x", "--report", "out/r"]).run world
    let piped := (run World.host ["-", "fiu", "-x", "--report", "out/r"]).run
      { world with input := content }
    Arguments.parse ["t", "fiu", "-x", "--report", "out/r"] = .measure s ∧
      here.1.code = 0 ∧ here.1.output = "2\n" ∧ piped.1 = here.1 ∧
      (∃ totals : Totals, totals.footprint.toNat = 2 ∧
        here.2.HasReport "out/r"
          { trace := "t", format := .fiu, mode := .exact, hours := none,
            stats := { lines := 2, empty := 0, closed := false }, totals }) ∧
      (run World.host ["t", "fiu", "--report", "out/r"]).run world = here := by
  intro content world s here piped
  have hs : Arguments.parse ["t", "fiu", "-x", "--report", "out/r"] = .measure s := by
    decide +kernel
  obtain ⟨_, hresult, hsource, hmodes⟩ := result_of_accepted hs world
  have hcode : here.1.code = 0 := by decide +kernel
  have hopened : world.disk.openFile "t" = .ok content := rfl
  have hfault : (Measurement.run .fiu .exact none content).fault = none := by decide +kernel
  have hstats : (Measurement.run .fiu .exact none content).stats =
      { lines := 2, empty := 0, closed := false } := by decide +kernel
  have hfootprint :
      (Measurement.run .fiu .exact none content).totals.footprint.toNat = 2 :=
    (Measurement.toNat_footprint_run .fiu .exact none content).trans (by decide +kernel)
  have hmeasures : world.Measures s { lines := 2, empty := 0, closed := false }
      (Measurement.run .fiu .exact none content).totals :=
    measures_iff.mpr ⟨content, hopened, hfault, hstats.symm, rfl⟩
  obtain ⟨houtput, hreport⟩ := hresult hcode _ _ hmeasures
  refine ⟨hs, hcode, ?_, ?_, ⟨_, hfootprint, hreport "out/r" rfl⟩,
    hmodes _ none (by decide +kernel) (by decide) (by decide)⟩
  · rw [houtput, hfootprint]
    rfl
  · obtain ⟨_, hsame, _⟩ | ⟨f, _, hfailure, _⟩ :=
      hsource ["-", "fiu", "-x", "--report", "out/r"] content (by decide +kernel) (by decide) hopened
    · exact hsame
    · rw [hfailure] at hcode
      cases hcode

end Program

end Footprint

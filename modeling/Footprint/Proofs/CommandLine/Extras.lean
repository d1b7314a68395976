import Footprint.Proofs.CommandLine.Results

/-!
# Values that are ignored

After the trace, the format and the cache mode every further value is ignored, and so is
everything that follows it. What stands before it is read as without it, so only the options
that follow an ignored value are lost: a command line with none there means the same with and
without the value, and one with some is carried out as if they had not been given.
-/

namespace Footprint

namespace Arguments

/-- What does not begin with a dash is a value. -/
theorem shape_eq_plain {argument : String} (h : argument.toList.head? ≠ some '-') :
    shape argument = .plain := by
  unfold shape
  split
  · rename_i hlist
    rw [hlist] at h
    exact absurd rfl h
  · rename_i hlist
    rw [hlist] at h
    exact absurd rfl h
  · rename_i hlist
    rw [hlist] at h
    exact absurd rfl h
  · rfl

/-- The draft that becomes these settings. -/
def draftOf (s : Settings) : Draft :=
  ⟨s.trace, s.format, s.cacheMode, s.hours, s.report⟩

/-- Only a draft with a trace and a format becomes settings. -/
theorem Draft.finish_eq_measure_iff {d : Draft} {s : Settings} :
    d.finish = .measure s ↔ d = draftOf s := by
  obtain ⟨_ | trace, _ | format, cacheMode, hours, report⟩ := d
  · exact iff_of_false nofun nofun
  · exact iff_of_false nofun nofun
  · exact iff_of_false nofun nofun
  · obtain ⟨trace', format', cacheMode', hours', report'⟩ := s
    simp only [finish, draftOf, Request.measure.injEq, Settings.mk.injEq, Draft.mk.injEq,
      Option.some.injEq]

namespace Scan

variable {s s' : Scan} {a : String}

/-- A value that is not taken is refused. -/
theorem error_of_value {r : Request} (h : s.value a = .error r) : ∃ e, r = .refuse e := by
  unfold value at h
  split at h
  · cases h
  · split at h
    · cases h
    · cases h
      exact ⟨_, rfl⟩

/-- The value of an option that is not taken is refused. -/
theorem error_of_choose {choice : Choice} {r : Request} (h : s.choose a choice = .error r) :
    ∃ e, r = .refuse e := by
  unfold choose at h
  split at h
  · cases h
  · cases h
    exact ⟨_, rfl⟩

/-- An argument that ends a scan asks for a text or is refused. -/
theorem error_of_step {r : Request} (h : s.step a = .error r) :
    (∃ e, r = .refuse e) ∨ ∃ question : Question, r = question.request := by
  unfold step at h
  split at h
  case h_1 =>
    unfold argument at h
    split at h <;> grind [error_of_value, error_of_choose]
  case h_2 =>
    unfold valueOf at h
    split at h <;> grind [error_of_choose]
  case h_3 => exact Or.inl (error_of_value h)
  case h_4 => cases h

/-- A scan that ends early does not end in a measurement. -/
theorem not_measure_of_foldlM {arguments : List String} {r : Request}
    (h : arguments.foldlM step s = .error r) (settings : Settings) : r ≠ .measure settings := by
  induction arguments generalizing s with
  | nil => cases h
  | cons a rest ih =>
    rw [List.foldlM_cons] at h
    cases hstep : s.step a with
    | ok next =>
      rw [hstep] at h
      exact ih h
    | error r =>
      rw [hstep] at h
      cases h
      obtain ⟨_, rfl⟩ | ⟨question, rfl⟩ := error_of_step hstep
      · exact nofun
      · cases question <;> exact nofun

/-- The second scan has the trace, the format and the cache mode of the first. -/
def Keeps (s s' : Scan) : Prop :=
  s'.draft.trace = s.draft.trace ∧ s'.draft.format = s.draft.format ∧
    s'.draft.cacheMode = s.draft.cacheMode

/-- A full draft keeps its values when another one is given. -/
theorem keeps_of_value (hfull : s.draft.isFull = true) (h : s.value a = .ok s') : s.Keeps s' := by
  rw [value, if_pos hfull] at h
  cases h
  exact ⟨rfl, rfl, rfl⟩

/-- A draft keeps its values when an option is chosen. -/
theorem keeps_of_choose {choice : Choice} (h : s.choose a choice = .ok s') : s.Keeps s' := by
  unfold choose Draft.choose at h
  cases choice <;> grind [Keeps]

/-- A full draft keeps its values, whatever the next argument is. -/
theorem keeps_of_step (hfull : s.draft.isFull = true) (h : s.step a = .ok s') : s.Keeps s' := by
  unfold step at h
  split at h
  case h_1 =>
    unfold argument at h
    split at h <;> grind [Keeps, keeps_of_value, keeps_of_choose]
  case h_2 =>
    unfold valueOf at h
    split at h <;> grind [keeps_of_choose]
  case h_3 => exact keeps_of_value hfull h
  case h_4 =>
    cases h
    exact ⟨rfl, rfl, rfl⟩

/-- A full draft keeps its values up to the end of the arguments. -/
theorem keeps_of_foldlM {arguments : List String} (hfull : s.draft.isFull = true)
    (h : arguments.foldlM step s = .ok s') : s.Keeps s' := by
  induction arguments generalizing s with
  | nil =>
    cases h
    exact ⟨rfl, rfl, rfl⟩
  | cons a rest ih =>
    rw [List.foldlM_cons] at h
    cases hstep : s.step a with
    | error r =>
      rw [hstep] at h
      cases h
    | ok next =>
      rw [hstep] at h
      obtain ⟨htrace, hformat, hmode⟩ := keeps_of_step hfull hstep
      have hnext : next.draft.isFull = true := by rwa [Draft.isFull, hmode]
      obtain ⟨htrace', hformat', hmode'⟩ := ih hnext h
      exact ⟨htrace'.trans htrace, hformat'.trans hformat, hmode'.trans hmode⟩

/-- A scan becomes settings if its draft does and no value is missing. -/
theorem finish_eq_measure_iff {settings : Settings} :
    s.finish = .measure settings ↔
      s.draft = draftOf settings ∧ ∀ choice, s.phase ≠ .valueOf choice := by
  obtain ⟨draft, phase⟩ := s
  cases phase with
  | valueOf choice => exact iff_of_false nofun fun h => h.2 choice rfl
  | anything | valuesOnly | ignored =>
    exact Draft.finish_eq_measure_iff.trans (and_iff_left nofun).symm

/-- A value after the cache mode is ignored, and so is what follows. -/
theorem step_of_isFull (hfull : s.draft.isFull = true)
    (hphase : ∀ choice, s.phase ≠ .valueOf choice) (hplain : a.toList.head? ≠ some '-') :
    s.step a = .ok { s with phase := .ignored } := by
  obtain ⟨draft, phase⟩ := s
  cases phase with
  | anything => simp only [step, argument, shape_eq_plain hplain, value, hfull, if_true]
  | valueOf choice => exact absurd rfl (hphase choice)
  | valuesOnly => simp only [step, value, hfull, if_true]
  | ignored => rfl

end Scan

/-- Arguments that ask for a measurement are scanned to their end. -/
theorem parse_eq_measure_iff {arguments : List String} {settings : Settings} :
    parse arguments = .measure settings ↔
      ∃ s : Scan, arguments.foldlM Scan.step .start = .ok s ∧ s.finish = .measure settings := by
  unfold parse
  cases hscan : arguments.foldlM Scan.step .start with
  | ok s => simp only [Except.ok.injEq, exists_eq_left']
  | error r =>
    refine iff_of_false (Scan.not_measure_of_foldlM hscan settings) ?_
    rintro ⟨s, hs, _⟩
    cases hs

/-- After the cache mode, a value makes everything from it on be ignored. -/
theorem parse_append_of_isSome {before : List String} {s : Settings}
    (hbefore : parse before = .measure s) (hmode : s.cacheMode.isSome = true) {extra : String}
    (hplain : extra.toList.head? ≠ some '-') (after : List String) :
    parse (before ++ extra :: after) = .measure s := by
  obtain ⟨scan, hscan, hfinish⟩ := parse_eq_measure_iff.mp hbefore
  obtain ⟨hdraft, hphase⟩ := Scan.finish_eq_measure_iff.mp hfinish
  have hfull : scan.draft.isFull = true := by rwa [hdraft]
  refine parse_eq_measure_iff.mpr ⟨{ scan with phase := .ignored }, ?_, ?_⟩
  · rw [List.foldlM_append, hscan]
    change (List.foldlM Scan.step scan (extra :: after)) = _
    rw [List.foldlM_cons, Scan.step_of_isFull hfull hphase hplain]
    exact foldlM_step_ignored rfl after
  · exact Scan.finish_eq_measure_iff.mpr ⟨hdraft, nofun⟩

/-- What follows the cache mode can only add options. -/
theorem settings_of_append {before after : List String} {s whole : Settings}
    (hbefore : parse before = .measure s) (hmode : s.cacheMode.isSome = true)
    (hwhole : parse (before ++ after) = .measure whole) :
    whole = { s with hours := whole.hours, report := whole.report } := by
  obtain ⟨scan, hscan, hfinish⟩ := parse_eq_measure_iff.mp hbefore
  obtain ⟨hdraft, _⟩ := Scan.finish_eq_measure_iff.mp hfinish
  obtain ⟨last, hlast, hfinish'⟩ := parse_eq_measure_iff.mp hwhole
  obtain ⟨hdraft', _⟩ := Scan.finish_eq_measure_iff.mp hfinish'
  have hfull : scan.draft.isFull = true := by rwa [hdraft]
  rw [List.foldlM_append, hscan] at hlast
  obtain ⟨htrace, hformat, hmode⟩ := Scan.keeps_of_foldlM hfull hlast
  rw [hdraft, hdraft'] at htrace hformat hmode
  simp only [draftOf, Option.some.injEq] at htrace hformat hmode
  obtain ⟨trace, format, cacheMode, hours, report⟩ := whole
  simp only [Settings.mk.injEq, and_true]
  exact ⟨htrace, hformat, hmode⟩

end Arguments

namespace Program

/-- A run whose trace is measured and that is asked for no report leaves the world as it was. -/
theorem run_perform_of_no_report {world : World} {s : Settings} {content : Content}
    (h : world.source s.trace = .ok content)
    (hfault : (Measurement.run s.format s.mode s.hours content).fault = none)
    (hreport : s.report = none) :
    let m := Measurement.run s.format s.mode s.hours content
    (perform World.host s).run world =
      (.success (toString m.totals.footprint.toNat ++ "\n"), world) := by
  intro m
  have hsave : (saveReport? World.host s m).run world = (.ok (), world) := by
    rw [saveReport?, hreport]
    rfl
  exact run_perform_of_saved (run_measurement_of_measured h hfault) hsave

/-- Values after the cache mode that begin with no dash are ignored together with everything that
follows them: the run is that of the arguments before them. Had they not been given, the settings
would differ from these only by the options that follow, so the run is the same with and without
them if no option follows, and the request is the same just if none does. -/
theorem extras_take_the_rest {before : List String} {s : Settings}
    (hbefore : Arguments.parse before = .measure s) (hmode : s.cacheMode.isSome = true)
    {extras : List String} (hne : extras ≠ [])
    (hplain : ∀ extra ∈ extras, extra.toList.head? ≠ some '-') (after : List String) :
    (∀ {m : Type → Type} [Monad m] (host : Host m),
        run host (before ++ extras ++ after) = run host before) ∧
      ∀ whole, Arguments.parse (before ++ after) = .measure whole →
        whole = { s with hours := whole.hours, report := whole.report } ∧
          (Arguments.parse (before ++ extras ++ after) = Arguments.parse (before ++ after) ↔
            whole.hours = s.hours ∧ whole.report = s.report) ∧
          (whole.hours = s.hours → whole.report = s.report →
            ∀ {m : Type → Type} [Monad m] (host : Host m),
              run host (before ++ extras ++ after) = run host (before ++ after)) := by
  obtain ⟨extra, more, rfl⟩ := List.exists_cons_of_ne_nil hne
  have hparse : Arguments.parse (before ++ extra :: more ++ after) = .measure s := by
    rw [List.append_assoc, List.cons_append]
    exact Arguments.parse_append_of_isSome hbefore hmode (hplain extra List.mem_cons_self) _
  refine ⟨fun host => ?_, fun whole hwhole => ?_⟩
  · rw [run_of_measure host hparse, run_of_measure host hbefore]
  · have hsettings := Arguments.settings_of_append hbefore hmode hwhole
    have hsame : Arguments.parse (before ++ extra :: more ++ after) =
        Arguments.parse (before ++ after) ↔ whole.hours = s.hours ∧ whole.report = s.report := by
      rw [hparse, hwhole, Arguments.Request.measure.injEq]
      constructor
      · rintro rfl
        exact ⟨rfl, rfl⟩
      · rintro ⟨hhours, hreport⟩
        rw [hsettings, hhours, hreport]
    refine ⟨hsettings, hsame, fun hhours hreport _ _ host => ?_⟩
    rw [run, run, hsame.mpr ⟨hhours, hreport⟩]

/-- A value after the cache mode takes along a limit and a report that follow it. -/
theorem extras_take_the_rest_of_two_options :
    Arguments.parse ["t", "fiu", "lru"] =
        .measure
          { trace := "t", format := .fiu, cacheMode := "lru", hours := none, report := none } ∧
      ["x"] ≠ [] ∧ (∀ extra ∈ ["x"], extra.toList.head? ≠ some '-') ∧
      Arguments.parse ["t", "fiu", "lru", "x", "--duration", "1h", "--report", "r"] ≠
        Arguments.parse ["t", "fiu", "lru", "--duration", "1h", "--report", "r"] ∧
      run World.host ["t", "fiu", "lru", "x", "--duration", "1h", "--report", "r"] =
        run World.host ["t", "fiu", "lru"] := by
  let s : Settings :=
    { trace := "t", format := .fiu, cacheMode := "lru", hours := none, report := none }
  have hbefore : Arguments.parse ["t", "fiu", "lru"] = .measure s := by decide +kernel
  have hwhole : Arguments.parse ["t", "fiu", "lru", "--duration", "1h", "--report", "r"] =
      .measure { s with hours := some 1, report := some "r" } := by
    decide +kernel
  have hne : ["x"] ≠ [] := List.cons_ne_nil _ _
  have hplain : ∀ extra ∈ ["x"], extra.toList.head? ≠ some '-' := by
    rw [List.forall_mem_singleton]
    decide
  obtain ⟨hrun, hoptions⟩ :=
    extras_take_the_rest hbefore rfl hne hplain ["--duration", "1h", "--report", "r"]
  obtain ⟨_, hsame, _⟩ := hoptions _ hwhole
  refine ⟨hbefore, hne, hplain, fun h => ?_, hrun World.host⟩
  cases (hsame.mp h).1

/-- With a value between the cache mode and the options, a trace of one page in the first hour and
one after it is measured as a whole, and no report is written; both runs succeed. -/
theorem options_lost_after_extra :
    let content := Content.ofText "0 1 p 0 8 R\n3600000000001 1 p 16 8 R\n"
    let world : World :=
      { disk := { nodes := [(["t"], .file content.bytes)], current := [] }, input := ⟨[], none⟩ }
    let without :=
      (run World.host ["t", "fiu", "lru", "--duration", "1h", "--report", "r"]).run world
    let extended :=
      (run World.host ["t", "fiu", "lru", "x", "--duration", "1h", "--report", "r"]).run world
    without.1 = .success "1\n" ∧ extended.1 = .success "2\n" ∧
      (∃ report : Report, without.2.disk.openFile "r" = .ok (.ofText report.render)) ∧
      extended.2.disk.openFile "r" = .error .notFound := by
  intro content world without extended
  let s : Settings :=
    { trace := "t", format := .fiu, cacheMode := "lru", hours := some 1, report := some "r" }
  let s' : Settings := { s with hours := none, report := none }
  have hparse : Arguments.parse ["t", "fiu", "lru", "--duration", "1h", "--report", "r"] =
      .measure s := by
    decide +kernel
  have hparse' : Arguments.parse ["t", "fiu", "lru", "x", "--duration", "1h", "--report", "r"] =
      .measure s' := by
    decide +kernel
  have hsource : world.source "t" = .ok content := by
    rw [World.source, if_neg (by decide)]
    rfl
  have hfault : (Measurement.run .fiu .exact (some 1) content).fault = none := by decide +kernel
  have hfault' : (Measurement.run .fiu .exact none content).fault = none := by decide +kernel
  have hfootprint : (Measurement.run .fiu .exact (some 1) content).totals.footprint.toNat = 1 :=
    (Measurement.toNat_footprint_run .fiu .exact (some 1) content).trans (by decide +kernel)
  have hfootprint' : (Measurement.run .fiu .exact none content).totals.footprint.toNat = 2 :=
    (Measurement.toNat_footprint_run .fiu .exact none content).trans (by decide +kernel)
  have hwrite : ∀ path, s.report = some path → world.CanWrite path := by
    rintro _ ⟨⟩
    exact ⟨world.disk, rfl, _, rfl⟩
  obtain ⟨disk, hrun, hread⟩ := run_perform_of_canWrite hsource hfault hwrite
  have hwithout : without = (.success (toString 1 ++ "\n"), { world with disk }) := by
    rw [← hfootprint]
    refine Eq.trans ?_ hrun
    rw [← run_of_measure World.host hparse]
  have hextended : extended = (.success (toString 2 ++ "\n"), world) := by
    rw [← hfootprint']
    refine Eq.trans ?_ (run_perform_of_no_report (s := s') hsource hfault' rfl)
    rw [← run_of_measure World.host hparse']
  rw [hwithout, hextended]
  exact ⟨rfl, rfl, ⟨_, (hread "r" rfl).1⟩, rfl⟩

end Program

end Footprint

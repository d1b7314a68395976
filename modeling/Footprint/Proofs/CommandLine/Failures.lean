import Footprint.Proofs.CommandLine.Reports

/-!
# Runs that fail

The arguments are read before the trace is opened, the trace is measured before the report
is written, and the report is written before the result is printed. So on every host a run
that fails prints no result. On a world it leaves the disk as it was unless all that failed
was the report.
-/

namespace Footprint

/-- The content of the trace at a path, if it can be opened. -/
def World.source (w : World) (path : String) : Except HostError Content :=
  if path = "-" then .ok w.input else w.disk.openFile path

namespace Program

/-- Accepted arguments are carried out. -/
theorem run_of_measure {m : Type → Type} [Monad m] (host : Host m) {arguments : List String}
    {s : Settings} (h : Arguments.parse arguments = .measure s) :
    run host arguments = perform host s := by
  rw [run, h]

section Steps

variable {σ : Type} {host : Host (StateM σ)} {s : Settings} {w after : σ}

/-- A failed measurement ends the run. -/
theorem run_perform_of_error {f : Failure} (h : (measurement host s).run w = (.error f, after)) :
    (perform host s).run w = (.failure f, after) := by
  rw [perform, StateT.run_bind, h]
  rfl

/-- A report that cannot be written ends the run. -/
theorem run_perform_of_unsaved {m : Measurement} {measured : σ} {f : Failure}
    (h : (measurement host s).run w = (.ok m, measured))
    (hsave : (saveReport? host s m).run measured = (.error f, after)) :
    (perform host s).run w = (.failure f, after) := by
  rw [perform, StateT.run_bind, h]
  -- The measurement is known, so the run goes on to save its report.
  change StateT.run (_ >>= _) measured = _
  rw [StateT.run_bind, hsave]
  rfl

/-- After a measurement and its report, if one was asked for, the result is printed. -/
theorem run_perform_of_saved {m : Measurement} {measured : σ}
    (h : (measurement host s).run w = (.ok m, measured))
    (hsave : (saveReport? host s m).run measured = (.ok (), after)) :
    (perform host s).run w = (.success (toString m.totals.footprint ++ "\n"), after) := by
  rw [perform, StateT.run_bind, h]
  change StateT.run (_ >>= _) measured = _
  rw [StateT.run_bind, hsave]
  rfl

/-- A run that measures either fails or succeeds. -/
theorem run_perform_cases (host : Host (StateM σ)) (s : Settings) (w : σ) :
    (∃ f, ((perform host s).run w).1 = .failure f) ∨
      ∃ text, ((perform host s).run w).1 = .success text := by
  cases hmeasured : (measurement host s).run w with
  | mk measured after =>
    cases measured with
    | error f =>
      rw [run_perform_of_error hmeasured]
      exact Or.inl ⟨f, rfl⟩
    | ok m =>
      cases hsave : (saveReport? host s m).run after with
      | mk saved last =>
        cases saved with
        | error f =>
          rw [run_perform_of_unsaved hmeasured hsave]
          exact Or.inl ⟨f, rfl⟩
        | ok _ =>
          rw [run_perform_of_saved hmeasured hsave]
          exact Or.inr ⟨_, rfl⟩

/-- Whatever the host does, a run that does not succeed prints no result. -/
theorem output_eq_empty (host : Host (StateM σ)) (arguments : List String) (w : σ)
    (h : ((run host arguments).run w).1.code ≠ 0) :
    ((run host arguments).run w).1.output = "" := by
  unfold run at h ⊢
  cases hparse : Arguments.parse arguments with
  | measure s =>
    rw [hparse] at h
    obtain ⟨f, hf⟩ | ⟨text, htext⟩ := run_perform_cases host s w
    · exact congrArg Outcome.output hf
    · exact absurd (congrArg Outcome.code htext) h
  | version =>
    rw [hparse] at h
    exact absurd rfl h
  | help =>
    rw [hparse] at h
    exact absurd rfl h
  | refuse r => rfl

/-- Whatever the host does, a run ends with the code of refused arguments just if they are. -/
theorem code_eq_two_iff (host : Host (StateM σ)) (arguments : List String) (w : σ) :
    ((run host arguments).run w).1.code = 2 ↔ ∃ r, Arguments.parse arguments = .refuse r := by
  unfold run
  cases Arguments.parse arguments with
  | measure s =>
    refine iff_of_false (fun h => ?_) fun ⟨_, h⟩ => by cases h
    obtain ⟨f, hf⟩ | ⟨text, htext⟩ := run_perform_cases host s w
    · cases h.symm.trans (congrArg Outcome.code hf)
    · cases h.symm.trans (congrArg Outcome.code htext)
  | version => exact iff_of_false nofun fun ⟨_, h⟩ => by cases h
  | help => exact iff_of_false nofun fun ⟨_, h⟩ => by cases h
  | refuse r => exact iff_of_true rfl ⟨r, rfl⟩

end Steps

section World

variable {world : World} {s : Settings}

theorem run_openSource (world : World) (path : String) :
    (openSource World.host path).run world =
      match world.source path with
      | .ok content => (.ok content, world)
      | .error e => (.error ⟨path, e⟩, world) := by
  unfold openSource World.source standardInputPath
  by_cases hinput : path = "-"
  · rw [if_pos hinput, if_pos hinput]
    rfl
  · rw [if_neg hinput, if_neg hinput, StateT.run_bind]
    change (Except.mapError _ (world.disk.openFile path), world) = _
    cases world.disk.openFile path with
    | ok content => rfl
    | error e => rfl

/-- A trace that cannot be opened is not measured. -/
theorem run_measurement_of_unopened {e : HostError} (h : world.source s.trace = .error e) :
    (measurement World.host s).run world = (.error (.opening s.trace e), world) := by
  rw [measurement, StateT.run_bind, run_openSource, h]
  rfl

/-- A measurement that ends with a fault fails. -/
theorem run_measurement_of_fault {content : Content} {fault : MeasurementFault}
    (h : world.source s.trace = .ok content)
    (hfault : (Measurement.run s.format s.mode s.hours content).fault = some fault) :
    (measurement World.host s).run world = (.error (failureOf s.trace fault), world) := by
  rw [measurement, StateT.run_bind, run_openSource, h]
  simp only [bind, hfault]
  rfl

/-- A measurement that ends without a fault is given, and the world is as it was. -/
theorem run_measurement_of_measured {content : Content} (h : world.source s.trace = .ok content)
    (hfault : (Measurement.run s.format s.mode s.hours content).fault = none) :
    (measurement World.host s).run world =
      (.ok (Measurement.run s.format s.mode s.hours content), world) := by
  rw [measurement, StateT.run_bind, run_openSource, h]
  simp only [bind, hfault]
  rfl

end World

/-- A run that does not succeed prints no result. If the arguments are refused, or if opening the
trace, reading it or expanding an access of it fails, the world is left as it was. If all that fails
is the report, then too nothing is printed. -/
theorem failure_leaves_no_result (arguments : List String) (world : World) :
    let outcome := ((run World.host arguments).run world).1
    let after := ((run World.host arguments).run world).2
    (outcome.code ≠ 0 → outcome.output = "") ∧
      (outcome.code = 2 ↔ ∃ r, Arguments.parse arguments = .refuse r) ∧
      (outcome.code = 2 → after = world) ∧
      ∀ s, Arguments.parse arguments = .measure s →
        (∀ e, world.source s.trace = .error e →
          outcome = .failure (.opening s.trace e) ∧ after = world) ∧
        ∀ content, world.source s.trace = .ok content →
          let m := Measurement.run s.format s.mode s.hours content
          (∀ fault, m.fault = some fault →
            outcome = .failure (failureOf s.trace fault) ∧ after = world) ∧
          (m.fault = none → ∀ path, s.report = some path → ¬ world.CanWrite path →
            outcome.code = 1 ∧ outcome.output = "") := by
  intro outcome after
  refine ⟨output_eq_empty World.host arguments world, code_eq_two_iff World.host arguments world,
    fun hcode => ?_, fun s hs => ?_⟩
  · obtain ⟨r, hr⟩ := (code_eq_two_iff World.host arguments world).mp hcode
    have hrun : (run World.host arguments).run world = (.refusal r, world) := by
      rw [run, hr]
      rfl
    exact congrArg Prod.snd hrun
  · have hend {o : Outcome} {w : World} (h : (perform World.host s).run world = (o, w)) :
        outcome = o ∧ after = w := by
      rw [← run_of_measure World.host hs] at h
      exact ⟨congrArg Prod.fst h, congrArg Prod.snd h⟩
    refine ⟨fun e hsource => ?_, fun content hsource => ⟨fun fault hfault => ?_, ?_⟩⟩
    · exact hend (run_perform_of_error (run_measurement_of_unopened hsource))
    · exact hend (run_perform_of_error (run_measurement_of_fault hsource hfault))
    · intro hfault path hreport hwrite
      obtain ⟨f, w, _, hsave⟩ := saveReport?_of_not_canWrite hreport hwrite
      obtain ⟨hfailure, _⟩ := hend (run_perform_of_unsaved
        (run_measurement_of_measured hsource hfault) (hsave s.trace _))
      rw [hfailure]
      exact ⟨rfl, rfl⟩

/-- The last line is faulty, and the report of an earlier run stays. -/
theorem failure_leaves_no_result_of_last_line :
    let content := Content.ofText "5 1 p 0 9 R\n6 1 p\n"
    let world : World :=
      { disk :=
          { nodes := [(["t"], .file content.bytes), (["r"], .file "old".toUTF8.toList)]
            current := [] }
        input := ⟨[], none⟩ }
    let result := (run World.host ["t", "fiu", "--report", "r"]).run world
    result.1.code = 1 ∧ result.1.output = "" ∧ result.2 = world := by
  intro content world result
  obtain ⟨houtput, _, _, hmeasure⟩ :=
    failure_leaves_no_result ["t", "fiu", "--report", "r"] world
  let s : Settings :=
    { trace := "t", format := .fiu, cacheMode := none, hours := none, report := some "r" }
  obtain ⟨_, hopened⟩ := hmeasure s (by decide +kernel)
  have hsource : world.source "t" = .ok content := by
    rw [World.source, if_neg (by decide)]
    rfl
  obtain ⟨hfault, _⟩ := hopened content hsource
  obtain ⟨hfailure, hafter⟩ :=
    hfault (.reading (.entry (.tooFewFields 2 5 3 ' '))) (by decide +kernel)
  have hcode : result.1.code = 1 := congrArg Outcome.code hfailure
  refine ⟨hcode, houtput ?_, hafter⟩
  change result.1.code ≠ 0
  rw [hcode]
  decide

end Program

end Footprint

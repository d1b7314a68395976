import Footprint.CommandLine.Program
import Footprint.Proofs.Host.Directories
import Footprint.Proofs.Host.Disk

/-!
# Reports on a disk

A report can be written if the directory for it is there or can be made and a file can be
created in it. Then every report can be written and is read back as its text. Otherwise
writing any report fails, for the same reason and with the same directories left behind.
-/

namespace Footprint

/-- The directory for a file at a path is there or can be made, and then the disk is this one. -/
def World.ReachesParent (w : World) (path : String) (disk : Disk) : Prop :=
  match Path.parent? path with
  | none => disk = w.disk
  | some directory =>
    if directory.isEmpty then disk = w.disk
    else (World.host.makeDirectories directory).run w = (.ok (), { w with disk })

/-- A file can be created at a path once the directory for it is there. -/
def World.CanWrite (w : World) (path : String) : Prop :=
  ∃ above, w.ReachesParent path above ∧ ∃ disk, above.writeFile path [] = .ok disk

/-- The failure with another path of the trace; a failure to report is not about the trace. -/
def Failure.withTrace (trace : String) : Failure → Failure
  | .opening _ cause => .opening trace cause
  | .reading _ fault => .reading trace fault
  | .expanding _ overflow => .expanding trace overflow
  | .reportDirectory path directory cause => .reportDirectory path directory cause
  | .report path cause => .report path cause

namespace Program

open World (OnDisk)

theorem onDisk_makeParent (path : String) : OnDisk (makeParent World.host path) := by
  unfold makeParent
  split
  · exact .pure _
  · split
    · exact .pure _
    · exact .bind (World.onDisk_makeDirectories _) fun _ => .pure _

theorem onDisk_saveReport (path : String) (report : Report) :
    OnDisk (saveReport World.host path report) := by
  refine .bind (onDisk_makeParent path) fun made => ?_
  cases made
  · exact .pure _
  · exact .bind (World.onDisk_writeFile path _) fun _ => .pure _

theorem run_makeParent (w : World) (path : String) :
    (makeParent World.host path).run w =
      match Path.parent? path with
      | none => (.ok (), w)
      | some directory =>
        if directory.isEmpty then (.ok (), w)
        else
          (((World.host.makeDirectories directory).run w).1.mapError
              (.reportDirectory path directory),
            ((World.host.makeDirectories directory).run w).2) := by
  unfold makeParent
  cases Path.parent? path with
  | none => rfl
  | some directory =>
    by_cases hempty : directory.isEmpty = true
    · simp only [if_pos hempty]
      rfl
    · simp only [if_neg hempty]
      rfl

/-- The directory for a report is made just as far as it can be reached. -/
theorem run_makeParent_eq_ok_iff {w : World} {path : String} {disk : Disk} :
    (makeParent World.host path).run w = (.ok (), { w with disk }) ↔
      w.ReachesParent path disk := by
  have hsame : ((.ok (), w) : Except Failure Unit × World) = (.ok (), { w with disk }) ↔
      disk = w.disk := by
    obtain ⟨d, input⟩ := w
    simp [eq_comm]
  have hmade (directory : String) (made : Except HostError Unit × World) :
      (made.1.mapError (Failure.reportDirectory path directory), made.2) =
          (.ok (), { w with disk }) ↔
        made = (.ok (), { w with disk }) := by
    obtain ⟨e | _, after⟩ := made
    · exact iff_of_false nofun nofun
    · constructor
      · rintro ⟨⟩
        rfl
      · rintro ⟨⟩
        rfl
  rw [run_makeParent, World.ReachesParent]
  cases Path.parent? path with
  | none => exact hsame
  | some directory =>
    by_cases hempty : directory.isEmpty = true
    · simpa only [if_pos hempty] using hsame
    · simpa only [if_neg hempty] using hmade directory _

/-- A failure to make the directory for a report is not about the trace. -/
theorem withTrace_of_run_makeParent {w after : World} {path : String} {f : Failure}
    (h : (makeParent World.host path).run w = (.error f, after)) (trace : String) :
    f.withTrace trace = f := by
  have hmade {directory : String} {made : Except HostError Unit × World}
      (h : (made.1.mapError (Failure.reportDirectory path directory), made.2) =
        (.error f, after)) : f.withTrace trace = f := by
    obtain ⟨e | _, _⟩ := made
    · cases h
      rfl
    · cases h
  rw [run_makeParent] at h
  split at h
  · cases h
  · split at h
    · cases h
    · exact hmade h

theorem run_saveReport (w : World) (path : String) (report : Report) :
    (saveReport World.host path report).run w =
      match (makeParent World.host path).run w with
      | (.error f, after) => (.error f, after)
      | (.ok (), after) =>
        match after.disk.slot path with
        | .error e => (.error (.report path e), after)
        | .ok place =>
          (.ok (), { after with
            disk := after.disk.put place (.file report.render.toUTF8.toList) }) := by
  rw [saveReport, StateT.run_bind]
  obtain ⟨f | _, after⟩ := (makeParent World.host path).run w
  · rfl
  · change StateT.run (_ >>= _) after = _
    rw [StateT.run_bind, World.run_writeFile, Disk.writeFile_eq]
    dsimp only
    cases after.disk.slot path with
    | error e => rfl
    | ok place => rfl

/-- If a report can be written at a path, it is found there afterwards. -/
theorem saveReport_of_canWrite {w : World} {path : String} (h : w.CanWrite path)
    (report : Report) :
    ∃ disk, (saveReport World.host path report).run w = (.ok (), { w with disk }) ∧
      disk.openFile path = .ok (.ofText report.render) := by
  obtain ⟨above, habove, hwrite⟩ := h
  obtain ⟨place, hslot⟩ := Disk.exists_writeFile_iff.mp hwrite
  refine ⟨_, ?_, Disk.openFile_put_slot hslot _⟩
  rw [run_saveReport, run_makeParent_eq_ok_iff.mpr habove]
  simp only [hslot]

/-- If no report can be written at a path, every report fails for the same reason. -/
theorem saveReport_of_not_canWrite {w : World} {path : String} (h : ¬ w.CanWrite path) :
    ∃ f after, (∀ trace, Failure.withTrace trace f = f) ∧
      ∀ report, (saveReport World.host path report).run w = (.error f, after) := by
  cases hparent : (makeParent World.host path).run w with
  | mk made after =>
    have hinput : after.input = w.input := by
      have hkept := (onDisk_makeParent path).input_eq w
      rwa [hparent] at hkept
    -- Neither step looks at the text of the report.
    simp only [run_saveReport, hparent]
    cases made with
    | error f => exact ⟨f, after, withTrace_of_run_makeParent hparent, fun _ => rfl⟩
    | ok _ =>
      have hreach : w.ReachesParent path after.disk := by
        rw [← run_makeParent_eq_ok_iff, hparent, ← hinput]
      cases hslot : after.disk.slot path with
      | error e => exact ⟨.report path e, after, fun _ => rfl, fun _ => by simp only [hslot]⟩
      | ok place =>
        exact absurd ⟨after.disk, hreach, Disk.exists_writeFile_iff.mpr ⟨place, hslot⟩⟩ h

variable {w : World} {s : Settings}

theorem onDisk_saveReport? (s : Settings) (m : Measurement) :
    OnDisk (saveReport? World.host s m) := by
  unfold saveReport?
  split
  · exact .pure _
  · exact onDisk_saveReport _ _

/-- If the report can be written or none is asked for, saving it succeeds. -/
theorem saveReport?_of_canWrite (h : ∀ path, s.report = some path → w.CanWrite path)
    (m : Measurement) :
    ∃ disk, (saveReport? World.host s m).run w = (.ok (), { w with disk }) ∧
      ∀ path, s.report = some path → disk.openFile path = .ok (.ofText (reportOf s m).render) := by
  unfold saveReport?
  cases hreport : s.report with
  | none => exact ⟨w.disk, rfl, nofun⟩
  | some path =>
    obtain ⟨disk, hsave, hread⟩ := saveReport_of_canWrite (h path hreport) (reportOf s m)
    refine ⟨disk, hsave, ?_⟩
    rintro _ ⟨⟩
    exact hread

/-- If the report cannot be written, saving it fails whatever the trace is and holds. -/
theorem saveReport?_of_not_canWrite {path : String} (hreport : s.report = some path)
    (h : ¬ w.CanWrite path) :
    ∃ f after, (∀ trace, Failure.withTrace trace f = f) ∧
      ∀ trace m, (saveReport? World.host { s with trace } m).run w = (.error f, after) := by
  obtain ⟨f, after, htrace, hsave⟩ := saveReport_of_not_canWrite h
  refine ⟨f, after, htrace, fun trace m => ?_⟩
  rw [saveReport?, hreport]
  exact hsave _

end Program

end Footprint

import Footprint.Host.Directories
import Footprint.Host.Disk

/-!
# Actions that touch the disk only

An action on a world may read standard input or leave it alone. Those by which directories
are made and files are written leave it alone, so what they do can be told from the disk,
and standard input is afterwards what it was before.
-/

namespace Footprint.World

variable {α β : Type}

/-- The action gives the same and does the same to the disk whatever standard input holds. -/
def OnDisk (x : StateM World α) : Prop :=
  ∀ (w : World) (input : Content),
    x.run { w with input } = ((x.run w).1, { (x.run w).2 with input })

namespace OnDisk

theorem pure (a : α) : OnDisk (Pure.pure a : StateM World α) :=
  fun _ _ => rfl

theorem bind {x : StateM World α} {f : α → StateM World β} (hx : OnDisk x)
    (hf : ∀ a, OnDisk (f a)) : OnDisk (x >>= f) := by
  intro w input
  calc (x >>= f).run { w with input }
      = (f (x.run { w with input }).1).run (x.run { w with input }).2 := rfl
    _ = (f (x.run w).1).run { (x.run w).2 with input } := by rw [hx w input]
    _ = (((x >>= f).run w).1, { ((x >>= f).run w).2 with input }) := hf _ _ input

/-- With other things on standard input the action goes as before. -/
theorem run_input {x : StateM World α} (hx : OnDisk x) {w after : World} {a : α}
    (h : x.run w = (a, after)) (input : Content) :
    x.run { w with input } = (a, { after with input }) := by
  rw [hx w input, h]

/-- Standard input holds afterwards what it held before. -/
theorem input_eq {x : StateM World α} (h : OnDisk x) (w : World) : (x.run w).2.input = w.input :=
  congrArg (fun r : α × World => r.2.input) (h w w.input)

end OnDisk

theorem run_makeDirectory (path : String) (w : World) :
    (host.makeDirectory path).run w =
      match w.disk.makeDirectory path with
      | .ok disk => (.ok (), { w with disk })
      | .error e => (.error e, w) := rfl

theorem run_writeFile (path text : String) (w : World) :
    (host.writeFile path text).run w =
      match w.disk.writeFile path text.toUTF8.toList with
      | .ok disk => (.ok (), { w with disk })
      | .error e => (.error e, w) := rfl

theorem onDisk_isDirectory (path : String) : OnDisk (host.isDirectory path) :=
  fun _ _ => rfl

theorem onDisk_makeDirectory (path : String) : OnDisk (host.makeDirectory path) := by
  intro w input
  rw [run_makeDirectory, run_makeDirectory]
  cases w.disk.makeDirectory path <;> rfl

theorem onDisk_writeFile (path text : String) : OnDisk (host.writeFile path text) := by
  intro w input
  rw [run_writeFile, run_writeFile]
  cases w.disk.writeFile path text.toUTF8.toList <;> rfl

theorem onDisk_ensureDirectory (path : String) : OnDisk (host.ensureDirectory path) := by
  refine .bind (onDisk_makeDirectory path) fun made => ?_
  split
  · refine .bind (onDisk_isDirectory path) fun isDirectory => ?_
    cases isDirectory
    · exact .pure _
    · exact .pure _
  · exact .pure _

theorem onDisk_climb (paths : List String) : OnDisk (host.climb paths) := by
  induction paths with
  | nil => exact .pure _
  | cons path above ih =>
    refine .bind (onDisk_ensureDirectory path) fun ensured => ?_
    split
    · exact .pure _
    · exact .bind ih fun _ => .pure _
    · exact .pure _

theorem onDisk_makeEach (paths : List String) : OnDisk (host.makeEach paths) := by
  induction paths with
  | nil => exact .pure _
  | cons path rest ih =>
    refine .bind (onDisk_ensureDirectory path) fun ensured => ?_
    cases ensured
    · exact .pure _
    · exact ih

/-- Making a directory with those above it leaves standard input alone. -/
theorem onDisk_makeDirectories (path : String) : OnDisk (host.makeDirectories path) := by
  refine .bind (onDisk_climb _) fun climbed => ?_
  cases climbed
  · exact .pure _
  · exact onDisk_makeEach _

end Footprint.World

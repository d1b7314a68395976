import Footprint.Host.Disk

/-!
# Files on a disk

A path is walked through directories only, so putting a file where no directory stands
leads no path elsewhere. A file that has been written is therefore found under the same
path, with the bytes written. Whether it can be written depends on the path and on the
disk, and not on the bytes.
-/

namespace Footprint.Disk

private theorem lookup_filter_ne {α β : Type} [BEq α] [LawfulBEq α] [DecidableEq α] {a b : α}
    (h : a ≠ b) (nodes : List (α × β)) : (nodes.filter (·.1 ≠ b)).lookup a = nodes.lookup a := by
  induction nodes with
  | nil => rfl
  | cons node nodes ih =>
    obtain ⟨c, value⟩ := node
    by_cases hc : c = b
    · have hac : (a == c) = false := beq_eq_false_iff_ne.mpr (hc ▸ h)
      rw [List.filter_cons_of_neg (by simpa using hc), ih, List.lookup_cons, hac]
    · rw [List.filter_cons_of_pos (by simpa using hc), List.lookup_cons, List.lookup_cons, ih]

variable {d : Disk} {place p q : Place} {name : String}

/-- What is put at a place stands there. -/
theorem find?_put_self (d : Disk) (hplace : place ≠ []) (node : Node) :
    (d.put place node).find? place = some node := by
  rw [find?, if_neg hplace, put, List.lookup_cons, BEq.rfl]

/-- What stands at the other places is not touched. -/
theorem find?_put_of_ne (d : Disk) (h : p ≠ place) (node : Node) :
    (d.put place node).find? p = d.find? p := by
  have hlookup : (d.put place node).nodes.lookup p = d.nodes.lookup p := by
    rw [put, List.lookup_cons, beq_eq_false_iff_ne.mpr h]
    exact lookup_filter_ne h d.nodes
  rw [find?, find?, hlookup]

/-- A name that is not too long leads to what stands there. -/
theorem child?_eq_ok_iff {node : Option Node} :
    d.child? p name = .ok node ↔ name.utf8ByteSize ≤ nameLimit ∧ d.find? (name :: p) = node := by
  unfold child?
  split
  · rename_i hlong
    simp only [reduceCtorEq, Nat.not_le.mpr hlong, false_and]
  · rename_i hshort
    simp only [Except.ok.injEq, Nat.le_of_not_lt hshort, true_and]

/-- A step that neither stays nor goes up is a step into a directory of that name. -/
theorem enter_eq_ok_iff (hstay : name ≠ ".") (hup : name ≠ "..") :
    d.enter p name = .ok q ↔ d.child? p name = .ok (some .directory) ∧ q = name :: p := by
  rw [enter, if_neg hstay, if_neg hup]
  cases hchild : d.child? p name with
  | error e => simp only [bind, Except.bind, reduceCtorEq, false_and]
  | ok node =>
    obtain _ | _ | bytes := node
    · simp [bind, Except.bind]
    · simp [bind, Except.bind, eq_comm]
    · simp [bind, Except.bind]

/-- A name with others after it must be a step to a directory. -/
theorem walk_cons_cons (d : Disk) (slash : Bool) (p : Place) (name next : String)
    (rest : List String) :
    d.walk slash p (name :: next :: rest) =
      d.enter p name >>= fun q => d.walk slash q (next :: rest) := by
  rw [walk]
  exact List.cons_ne_nil next rest

section Put

variable (hplace : d.find? place ≠ some .directory) (node : Node)
include hplace

/-- A step can still be taken after something was put where no directory stood. -/
theorem enter_put (h : d.enter p name = .ok q) : (d.put place node).enter p name = .ok q := by
  by_cases hstay : name = "."
  · rwa [enter, if_pos hstay] at h ⊢
  · by_cases hup : name = ".."
    · rwa [enter, if_neg hstay, if_pos hup] at h ⊢
    · rw [enter_eq_ok_iff hstay hup, child?_eq_ok_iff] at h ⊢
      obtain ⟨⟨hshort, hfind⟩, hq⟩ := h
      have hne : name :: p ≠ place := fun heq => hplace (heq ▸ hfind)
      exact ⟨⟨hshort, (find?_put_of_ne d hne node).trans hfind⟩, hq⟩

/-- A path leads where it led before. -/
theorem walk_put {slash : Bool} {names : List String} {t : Target}
    (h : d.walk slash p names = .ok t) : (d.put place node).walk slash p names = .ok t := by
  induction names generalizing p with
  | nil => exact h
  | cons name rest ih =>
    cases rest with
    | nil =>
      rw [walk] at h ⊢
      split
      · rename_i hdots
        rw [if_pos hdots] at h
        cases henter : d.enter p name with
        | error e =>
          rw [henter] at h
          cases h
        | ok q =>
          rw [henter] at h
          rwa [enter_put hplace node henter]
      · rename_i hdots
        rwa [if_neg hdots] at h
    | cons next rest =>
      rw [walk_cons_cons] at h ⊢
      cases henter : d.enter p name with
      | error e =>
        rw [henter] at h
        cases h
      | ok q =>
        rw [henter] at h
        rw [enter_put hplace node henter]
        exact ih h

/-- What a path leads to does not depend on what is put where no directory stood. -/
theorem target_put {path : String} {t : Target} (h : d.target path = .ok t) :
    (d.put place node).target path = .ok t := by
  have hcurrent : (d.put place node).current = d.current := rfl
  unfold target at h ⊢
  rw [hcurrent]
  split at h
  · cases h
  · rename_i hnul
    rw [if_neg hnul]
    split at h
    · cases h
    · rename_i hempty
      rw [if_neg hempty]
      split at h
      · cases h
      · rename_i hlong
        rw [if_neg hlong]
        exact walk_put hplace node h

end Put

/-- The place at which a file is written under a path, if it can be written. -/
def slot (d : Disk) (path : String) : Except HostError Place := do
  match ← d.target path with
  | .named place name false =>
    if (← d.child? place name) = some .directory then .error .isDirectory
    else .ok (name :: place)
  | _ => .error .isDirectory

/-- Whether a file can be written, and where, does not depend on its bytes. -/
theorem writeFile_eq (d : Disk) (path : String) (bytes : List UInt8) :
    d.writeFile path bytes = (d.slot path).map fun place => d.put place (.file bytes) := by
  rw [writeFile, slot]
  obtain e | _ | ⟨p, name, _ | _⟩ := d.target path
  · rfl
  · rfl
  · simp only [bind, Except.bind, Bool.false_eq_true, if_false]
    obtain e | _ | _ | old := d.child? p name
    · rfl
    · rfl
    · rfl
    · rfl
  · rfl

/-- A file can be written, whatever its bytes, if there is a place for it. -/
theorem exists_writeFile_iff {path : String} {bytes : List UInt8} :
    (∃ d', d.writeFile path bytes = .ok d') ↔ ∃ place, d.slot path = .ok place := by
  rw [writeFile_eq]
  cases d.slot path with
  | error e => exact iff_of_false (fun ⟨_, h⟩ => nomatch h) (fun ⟨_, h⟩ => nomatch h)
  | ok place => exact iff_of_true ⟨_, rfl⟩ ⟨_, rfl⟩

/-- A file is written at a name without a slash after it, unless a directory stands there. -/
theorem slot_eq_ok {path : String} (h : d.slot path = .ok place) :
    ∃ p name, place = name :: p ∧ d.target path = .ok (.named p name false) ∧
      name.utf8ByteSize ≤ nameLimit ∧ d.find? place ≠ some .directory := by
  unfold slot at h
  cases htarget : d.target path with
  | error e =>
    rw [htarget] at h
    cases h
  | ok t =>
    rw [htarget] at h
    obtain _ | ⟨p, name, _ | _⟩ := t
    · cases h
    · cases hchild : d.child? p name with
      | error e =>
        simp only [bind, Except.bind, hchild, reduceCtorEq] at h
      | ok node =>
        obtain ⟨hshort, hfind⟩ := child?_eq_ok_iff.mp hchild
        simp only [bind, Except.bind, hchild] at h
        by_cases hnode : node = some .directory
        · rw [if_pos hnode] at h
          cases h
        · rw [if_neg hnode] at h
          cases h
          exact ⟨p, name, rfl, rfl, hshort, hfind ▸ hnode⟩
    · cases h

/-- A file that has been written is read back under the same path. -/
theorem openFile_put_slot {path : String} (h : d.slot path = .ok place) (bytes : List UInt8) :
    (d.put place (.file bytes)).openFile path = .ok ⟨bytes, none⟩ := by
  obtain ⟨p, name, rfl, htarget, hshort, hplace⟩ := slot_eq_ok h
  have hchild : (d.put (name :: p) (.file bytes)).child? p name = .ok (some (.file bytes)) :=
    child?_eq_ok_iff.mpr ⟨hshort, find?_put_self d (List.cons_ne_nil _ _) _⟩
  rw [openFile, node, target_put hplace _ htarget]
  simp only [bind, Except.bind, hchild]
  rfl

end Footprint.Disk

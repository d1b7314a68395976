import Footprint.Text.Fields

/-!
# Paths

A path is a text whose steps are separated by slashes. Empty steps and steps
that stay in place are skipped when the last step is removed to find the parent,
but the text before it is kept as it was written.
-/

namespace Footprint.Path

/-- The names between the slashes of a path, without the empty ones. -/
def names (path : String) : List String :=
  ((Text.fields '/' path.toList).filter (· ≠ [])).map String.ofList

/-- The path starts at the root. -/
def isAbsolute (path : String) : Bool :=
  path.toList.head? = some '/'

/-- The path ends in a slash. -/
def endsInSlash (path : String) : Bool :=
  path.toList.getLast? = some '/'

/-- A path is divided into the root or the place where it starts, and its steps. -/
def divide : List Char → List Char × List Char
  | '/' :: steps => (['/'], steps)
  | ['.'] => (['.'], [])
  | '.' :: '/' :: steps => (['.'], '/' :: steps)
  | steps => ([], steps)

/-- The steps of a path, last character first, without those at the end that lead nowhere. -/
def trimSteps : List Char → List Char
  | '/' :: rest => trimSteps rest
  | '.' :: '/' :: rest => trimSteps rest
  | ['.'] => []
  | rest => rest

/-- The characters of the parent of a path, unless the path is empty or the root. -/
def parentChars? (path : List Char) : Option (List Char) :=
  let (origin, steps) := divide path
  match trimSteps steps.reverse with
  | [] => if origin = ['.'] then some [] else none
  | last => some (origin ++ (trimSteps (last.dropWhile (· ≠ '/'))).reverse)

/-- The parent of a path, unless the path is empty or the root. -/
def parent? (path : String) : Option String :=
  (parentChars? path.toList).map String.ofList

private theorem length_divide (path : List Char) :
    (divide path).1.length + (divide path).2.length = path.length := by
  unfold divide
  split <;> simp only [List.length_cons, List.length_nil] <;> omega

private theorem length_trimSteps_le (steps : List Char) :
    (trimSteps steps).length ≤ steps.length := by
  fun_induction trimSteps steps with
  | case1 rest ih => exact Nat.le_succ_of_le ih
  | case2 rest ih => exact Nat.le_succ_of_le (Nat.le_succ_of_le ih)
  | case3 => exact Nat.zero_le _
  | case4 rest => exact Nat.le_refl _

private theorem head_trimSteps_ne (steps : List Char) : (trimSteps steps).head? ≠ some '/' := by
  fun_induction trimSteps steps with
  | case1 rest ih => exact ih
  | case2 rest ih => exact ih
  | case3 => exact nofun
  | case4 rest h =>
    cases rest with
    | nil => exact nofun
    | cons c r =>
      intro hc
      exact h r (by rw [Option.some.inj hc])

private theorem length_dropWhile_lt {last : List Char} (hne : last ≠ [])
    (hh : last.head? ≠ some '/') : (last.dropWhile (· ≠ '/')).length < last.length := by
  cases last with
  | nil => exact absurd rfl hne
  | cons c r =>
    have hc : c ≠ '/' := fun h => hh (by rw [h]; rfl)
    rw [List.dropWhile_cons_of_pos (by simpa using hc)]
    exact Nat.lt_succ_of_le (List.dropWhile_sublist _).length_le

private theorem length_parentChars_lt {path parent : List Char}
    (h : parentChars? path = some parent) : parent.length < path.length := by
  have hd := length_divide path
  have ht := length_trimSteps_le (divide path).2.reverse
  rw [List.length_reverse] at ht
  simp only [parentChars?] at h
  split at h
  · split at h
    · rename_i ho
      cases h
      rw [ho] at hd
      simp only [List.length_cons, List.length_nil] at hd ⊢
      omega
    · exact nomatch h
  · rename_i hne
    cases h
    have hlt := length_dropWhile_lt hne (head_trimSteps_ne _)
    have hle := length_trimSteps_le
      ((trimSteps (divide path).2.reverse).dropWhile (· ≠ '/'))
    simp only [List.length_append, List.length_reverse]
    omega

/-- A parent is shorter than its path. -/
theorem length_parent_lt {path parent : String} (h : parent? path = some parent) :
    parent.length < path.length := by
  obtain ⟨cs, hcs, rfl⟩ := Option.map_eq_some_iff.mp h
  simpa only [String.length_ofList, String.length_toList] using length_parentChars_lt hcs

/-- The path and the paths above it up to the root or the place where it starts. -/
def ancestors (path : String) : List String :=
  match h : parent? path with
  | none => []
  | some parent =>
    have : parent.length < path.length := length_parent_lt h
    path :: ancestors parent
termination_by path.length

end Footprint.Path

/-!
# Delimited fields

A delimiter ends one field and begins the next, so a text has one field more
than it has delimiters, and the empty text has one empty field. Characters and
bytes are divided in the same way.
-/

namespace Footprint.Text

variable {α : Type} [DecidableEq α]

/-- The fields of a text. -/
def fields (delimiter : α) (cs : List α) : List (List α) :=
  let parts := cs.foldr (fun c (parts : List α × List (List α)) =>
    if c = delimiter then ([], parts.1 :: parts.2) else (c :: parts.1, parts.2)) ([], [])
  parts.1 :: parts.2

@[simp] theorem fields_nil (d : α) : fields d [] = [[]] := rfl

/-- A delimiter opens a new field before all others. -/
theorem fields_delimiter (d : α) (cs : List α) :
    fields d (d :: cs) = [] :: fields d cs := by
  simp [fields]

/-- Another character joins the first field. -/
theorem fields_cons {d c : α} (h : c ≠ d) (cs : List α) :
    fields d (c :: cs) = (fields d cs).modifyHead (c :: ·) := by
  simp [fields, h]

end Footprint.Text

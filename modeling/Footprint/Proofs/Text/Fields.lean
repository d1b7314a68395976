import Footprint.Text.Fields

/-!
# Fields put together and divided again

What holds no delimiter stays in one field, and a delimiter after it ends that field. So
fields without delimiters, written with one delimiter between any two of them, are divided
into the same fields again.
-/

namespace Footprint.Text

variable {α : Type} [DecidableEq α]

/-- What holds no delimiter joins the first field. -/
theorem fields_append {d : α} {xs : List α} (h : d ∉ xs) (ys : List α) :
    fields d (xs ++ ys) = (fields d ys).modifyHead (xs ++ ·) := by
  induction xs with
  | nil =>
    cases he : fields d ys with
    | nil => rw [List.nil_append, he]; rfl
    | cons f fs => rw [List.nil_append, he]; rfl
  | cons x xs ih =>
    obtain ⟨hx, hxs⟩ := not_or.mp (mt List.mem_cons.mpr h)
    rw [List.cons_append, fields_cons (Ne.symm hx), ih hxs]
    cases fields d ys <;> rfl

/-- What holds no delimiter is one field. -/
theorem fields_of_notMem {d : α} {xs : List α} (h : d ∉ xs) : fields d xs = [xs] := by
  have hjoin := fields_append h []
  rwa [List.append_nil, fields_nil, List.modifyHead_cons, List.append_nil] at hjoin

/-- A text has the fields before a delimiter in it and the fields after it. -/
theorem fields_append_cons (d : α) (xs ys : List α) :
    fields d (xs ++ d :: ys) = fields d xs ++ fields d ys := by
  induction xs with
  | nil => exact fields_delimiter d ys
  | cons x xs ih =>
    by_cases h : x = d
    · rw [h, List.cons_append, fields_delimiter, fields_delimiter, ih, List.cons_append]
    · rw [List.cons_append, fields_cons h, fields_cons h, ih]
      rfl

/-- A delimiter ends the field before it. -/
theorem fields_append_delimiter {d : α} {xs : List α} (h : d ∉ xs) (ys : List α) :
    fields d (xs ++ d :: ys) = xs :: fields d ys := by
  rw [fields_append_cons, fields_of_notMem h, List.singleton_append]

/-- Fields with one delimiter between any two of them are found again. -/
theorem fields_intercalate {d : α} {parts : List (List α)} (h : ∀ part ∈ parts, d ∉ part)
    (hne : parts ≠ []) : fields d ([d].intercalate parts) = parts := by
  induction parts with
  | nil => exact absurd rfl hne
  | cons part rest ih =>
    have hpart := h part List.mem_cons_self
    cases rest with
    | nil => rw [List.intercalate_singleton, fields_of_notMem hpart]
    | cons next rest =>
      have hrest := ih (fun p hp => h p (List.mem_cons_of_mem _ hp)) (List.cons_ne_nil _ _)
      rw [List.intercalate_cons_cons, List.append_assoc, List.singleton_append,
        fields_append_delimiter hpart, hrest]

/-- What stands in fields put together is the delimiter or stands in one of them. -/
theorem eq_or_exists_of_mem_intercalate {β : Type} {d x : β} {parts : List (List β)}
    (h : x ∈ [d].intercalate parts) : x = d ∨ ∃ part ∈ parts, x ∈ part := by
  induction parts with
  | nil => exact absurd h List.not_mem_nil
  | cons part rest ih =>
    cases rest with
    | nil =>
      rw [List.intercalate_singleton] at h
      exact Or.inr ⟨part, List.mem_cons_self, h⟩
    | cons next rest =>
      rw [List.intercalate_cons_cons, List.append_assoc, List.mem_append,
        List.singleton_append, List.mem_cons] at h
      rcases h with hpart | hd | hrest
      · exact Or.inr ⟨part, List.mem_cons_self, hpart⟩
      · exact Or.inl hd
      · exact (ih hrest).imp_right fun ⟨p, hp, hx⟩ => ⟨p, List.mem_cons_of_mem _ hp, hx⟩

/-- Fields with a delimiter after each of them are found again, and what follows them. -/
theorem fields_parts {d : α} {parts : List (List α)} {rest : List α}
    (h : ∀ part ∈ parts, d ∉ part) (hrest : d ∉ rest) :
    fields d (parts.flatMap (· ++ [d]) ++ rest) = parts ++ [rest] := by
  induction parts with
  | nil => exact fields_of_notMem hrest
  | cons part parts ih =>
    rw [List.flatMap_cons, List.append_assoc, List.append_assoc, List.singleton_append,
      fields_append_delimiter (h part List.mem_cons_self),
      ih fun p hp => h p (List.mem_cons_of_mem _ hp), List.cons_append]

/-- Fields with a delimiter after each of them are found again, and an empty one after them. -/
theorem fields_terminated {d : α} {parts : List (List α)} (h : ∀ part ∈ parts, d ∉ part) :
    fields d (parts.flatMap (· ++ [d])) = parts ++ [[]] := by
  have hparts : fields d (parts.flatMap (· ++ [d]) ++ []) = parts ++ [[]] :=
    fields_parts h List.not_mem_nil
  rwa [List.append_nil] at hparts

/-- Every text is some parts with a delimiter after each of them, and a rest without one. -/
theorem exists_parts (d : α) (xs : List α) :
    ∃ (parts : List (List α)) (rest : List α), (∀ part ∈ parts, d ∉ part) ∧ d ∉ rest ∧
      xs = parts.flatMap (· ++ [d]) ++ rest := by
  induction xs with
  | nil => exact ⟨[], [], nofun, List.not_mem_nil, rfl⟩
  | cons x xs ih =>
    obtain ⟨parts, rest, hparts, hrest, rfl⟩ := ih
    by_cases hx : x = d
    · subst hx
      exact ⟨[] :: parts, rest, by simpa using hparts, hrest, rfl⟩
    · cases parts with
      | nil => exact ⟨[], x :: rest, nofun, by simp [Ne.symm hx, hrest], rfl⟩
      | cons part parts =>
        rw [List.forall_mem_cons] at hparts
        refine ⟨(x :: part) :: parts, rest, ?_, hrest, rfl⟩
        rw [List.forall_mem_cons]
        exact ⟨by simp [Ne.symm hx, hparts.1], hparts.2⟩

end Footprint.Text

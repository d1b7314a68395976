import Footprint.Json.Forms
import Footprint.Proofs.Json.Acceptance
import Footprint.Proofs.Json.Records

/-!
# Written forms settle

A value has many spellings: blanks stand anywhere between tokens, members come in any order next
to members of other names, totals may be an array and a name the only member of an object. All
of them and no other texts are read as the value, and what is written for the value is one of
them. So a text that can be read is rewritten into a text that can be read and is rewritten into
itself.
-/

namespace Footprint

namespace Json

/-- What is written for the value that a text is read as. -/
def rewrite? {α : Type} (read? : Json → Option α) (write : α → List Char) (cs : List Char) :
    Option (List Char) :=
  ((parse? cs).bind read?).map write

/-- Values are read from their spellings and from no other texts, and what is written for them
stays as it is. -/
structure Settles {α : Type} (read? : Json → Option α) (write : α → List Char)
    (Spelled : α → List Char → Prop) : Prop where
  /-- What is written for a value is read as the value. -/
  read_write (a : α) : (parse? (write a)).bind read? = some a
  /-- A text is read as a value exactly if it spells the value. -/
  read_iff {a : α} {cs : List Char} : (parse? cs).bind read? = some a ↔ Spelled a cs
  /-- A text is rewritten into what is written for a value exactly if it spells the value. -/
  rewrite_iff {a : α} {cs : List Char} :
    rewrite? read? write cs = some (write a) ↔ Spelled a cs
  /-- What a text is rewritten into is rewritten into itself. -/
  rewrite_rewritten {cs out : List Char} (h : rewrite? read? write cs = some out) :
    rewrite? read? write out = some out

/-- Written forms settle if they are spellings and exactly the spellings are read. -/
theorem Settles.of_spelled {α : Type} {read? : Json → Option α} {write : α → List Char}
    {Spelled : α → List Char → Prop}
    (hread : ∀ {a cs}, (parse? cs).bind read? = some a ↔ Spelled a cs)
    (hwrite : ∀ a, Spelled a (write a)) : Settles read? write Spelled where
  read_write a := hread.mpr (hwrite a)
  read_iff := hread
  rewrite_iff {a cs} := by
    rw [rewrite?, Option.map_eq_some_iff]
    constructor
    · rintro ⟨b, hb, hsame⟩
      -- both values are read from the same written form
      have hback := hread.mpr (hwrite b)
      rw [hsame, hread.mpr (hwrite a)] at hback
      cases hback
      exact hread.mp hb
    · exact fun h => ⟨a, hread.mpr h, rfl⟩
  rewrite_rewritten h := by
    obtain ⟨a, _, rfl⟩ := Option.map_eq_some_iff.mp h
    rw [rewrite?, hread.mpr (hwrite a), Option.map_some]

/-- The text holds a name, alone or as the only member of an object with no value. -/
inductive SpelledName (name : String) (cs : List Char) : Prop
  /-- The name stands alone, with any escapes. -/
  | alone {written : List Char} (hname : unescape? written = some name.toList)
      (h : Spells (Json.leaf (.string written)).tokens cs)
  /-- The name is the only member of an object. -/
  | member {written : List Char} (hname : unescape? written = some name.toList)
      (h : Spells (Json.object [(written, .leaf .null)]).tokens cs)

/-- Exactly the spellings of a name are read as the name. -/
theorem name?_eq_some_iff {name : String} {cs : List Char} :
    (parse? cs).bind name? = some name ↔ SpelledName name cs := by
  constructor
  · intro h
    obtain ⟨j, hparse, hname⟩ := Option.bind_eq_some_iff.mp h
    have hspells := parse?_eq_some_iff.mp hparse
    have hlist {written : List Char}
        (h : (unescape? written).map String.ofList = some name) :
        unescape? written = some name.toList := by
      obtain ⟨characters, hcharacters, rfl⟩ := Option.map_eq_some_iff.mp h
      rw [hcharacters, String.toList_ofList]
    unfold name? at hname
    split at hname
    · exact .alone (hlist hname) hspells
    · exact .member (hlist hname) hspells
    · cases hname
  · rintro (⟨hname, h⟩ | ⟨hname, h⟩)
    all_goals
      rw [parse?_of_spells h, Option.bind_some, name?, hname, Option.map_some,
        String.ofList_toList]

/-- What is written for a name spells it. -/
theorem spelledName_render (name : String) : SpelledName name (Leaf.ofText name).render :=
  .alone (unescape?_escape name.toList) (Leaf.spells_render (Leaf.isWritten_ofText name))

/-- Exactly the spellings of a name are read as what it alone names. -/
theorem named_eq_some_iff {α : Type} {ofName? : String → Option α} {a : α} {name : String}
    (hname : ∀ s, ofName? s = some a ↔ s = name) {cs : List Char} :
    (parse? cs).bind (fun j => j.name?.bind ofName?) = some a ↔ SpelledName name cs := by
  rw [← name?_eq_some_iff, ← Option.bind_assoc, Option.bind_eq_some_iff]
  simp only [hname, exists_eq_right]

end Json

open Json

namespace Totals

/-- The text holds totals as an array in the order of writing, or as an object. -/
inductive Spelled (t : Totals) (cs : List Char) : Prop
  /-- The values stand in the order in which they are written. -/
  | array (h : Spells (Json.array (t.toRecord.map fun m => .leaf m.2)).tokens cs)
  /-- Each name stands for one member; other members come before, between and after them. -/
  | object {members named : List (List Char × Json)} (h : Spells (Json.object members).tokens cs)
      (hnamed : (Json.object members).members? = some named)
      (honly : ∀ m ∈ t.toRecord, only? m.1.toList named = some (.leaf m.2))

/-- Totals are made up of their values and of no others. -/
theorem ofValues?_eq_some_iff {t : Totals} {accesses touched footprint coarse : Json}
    (h : ∀ j ∈ [accesses, touched, footprint, coarse], j.IsWritten) :
    ofValues? accesses touched footprint coarse = some t ↔
      [accesses, touched, footprint, coarse] = t.toRecord.map fun m => .leaf m.2 := by
  simp only [List.forall_mem_cons] at h
  obtain ⟨haccesses, htouched, hfootprint, _⟩ := h
  obtain ⟨a, u, f, c⟩ := t
  simp only [ofValues?, toRecord, List.map_cons, List.map_nil, Option.bind_eq_bind,
    Option.bind_eq_some_iff, Option.pure_def, Option.some.injEq, Totals.mk.injEq,
    List.cons.injEq, and_true, ← word?_eq_some_iff haccesses, ← word?_eq_some_iff htouched,
    ← word?_eq_some_iff hfootprint, ← bool?_eq_some_iff]
  constructor
  · rintro ⟨a, ha, u, hu, f, hf, c, hc, rfl, rfl, rfl, rfl⟩
    exact ⟨ha, hu, hf, hc⟩
  · rintro ⟨ha, hu, hf, hc⟩
    exact ⟨a, ha, u, hu, f, hf, c, hc, rfl, rfl, rfl, rfl⟩

/-- Totals are found in an object that holds each of their members once. -/
theorem ofJson?_object {t : Totals} {members named : List (List Char × Json)}
    (hnamed : (Json.object members).members? = some named)
    (honly : ∀ m ∈ t.toRecord, only? m.1.toList named = some (.leaf m.2)) :
    ofJson? (.object members) = some t := by
  simp only [toRecord, List.forall_mem_cons] at honly
  obtain ⟨haccesses, htouched, hfootprint, hcoarse, _⟩ := honly
  simp only [ofJson?, hnamed, haccesses, htouched, hfootprint, hcoarse, ofValues?,
    Leaf.word?_ofWord, bool?, Option.bind_eq_bind, Option.bind_some, Option.pure_def]

/-- Totals that are found in an object are those of its only members of their names. -/
theorem exists_named_of_ofJson?_object {t : Totals} {members : List (List Char × Json)}
    (hwritten : (Json.object members).IsWritten) (h : ofJson? (.object members) = some t) :
    ∃ named, (Json.object members).members? = some named ∧
      ∀ m ∈ t.toRecord, only? m.1.toList named = some (.leaf m.2) := by
  simp only [ofJson?, Option.bind_eq_bind, Option.bind_eq_some_iff] at h
  obtain ⟨named, hnamed, accesses, haccesses, touched, htouched, footprint, hfootprint, coarse,
    hcoarse, hvalues⟩ := h
  have hall : ∀ j ∈ [accesses, touched, footprint, coarse], j.IsWritten := by
    simp only [List.forall_mem_cons, List.not_mem_nil, false_imp_iff, implies_true, and_true]
    exact ⟨hwritten.of_only? hnamed haccesses, hwritten.of_only? hnamed htouched,
      hwritten.of_only? hnamed hfootprint, hwritten.of_only? hnamed hcoarse⟩
  cases (ofValues?_eq_some_iff hall).mp hvalues
  refine ⟨named, hnamed, ?_⟩
  simp only [toRecord, List.forall_mem_cons]
  exact ⟨haccesses, htouched, hfootprint, hcoarse, List.forall_mem_nil _⟩

/-- Exactly the spellings of totals are read as the totals. -/
theorem ofJson?_eq_some_iff {t : Totals} {cs : List Char} :
    (parse? cs).bind ofJson? = some t ↔ t.Spelled cs := by
  constructor
  · intro h
    obtain ⟨j, hparse, ht⟩ := Option.bind_eq_some_iff.mp h
    have hspells := parse?_eq_some_iff.mp hparse
    have hwritten : j.IsWritten := fun _ => hspells.isWritten_of_mem
    match j, hspells, hwritten, ht with
    | .array [_, _, _, _], hspells, hwritten, ht =>
      have hall := (ofValues?_eq_some_iff fun _ => hwritten.of_item).mp ht
      rw [hall] at hspells
      exact .array hspells
    | .object _, hspells, hwritten, ht =>
      obtain ⟨_, hnamed, honly⟩ := exists_named_of_ofJson?_object hwritten ht
      exact .object hspells hnamed honly
  · rintro (h | ⟨h, hnamed, honly⟩)
    · rw [parse?_of_spells h]
      simp only [toRecord, List.map_cons, List.map_nil, ofJson?, ofValues?, Leaf.word?_ofWord,
        bool?, Option.bind_eq_bind, Option.bind_some, Option.pure_def]
    · rw [parse?_of_spells h, Option.bind_some]
      exact ofJson?_object hnamed honly

/-- The names of the members of totals are distinct. -/
theorem nodup_names (t : Totals) : (t.toRecord.map (·.1)).Nodup := by
  simp [toRecord]

/-- The values of totals can be read. -/
theorem isWritten_of_mem {t : Totals} {m : String × Leaf} (h : m ∈ t.toRecord) :
    m.2.IsWritten := by
  simp only [toRecord, List.mem_cons, List.not_mem_nil, or_false] at h
  rcases h with rfl | rfl | rfl | rfl
  · exact Leaf.isWritten_ofWord _
  · exact Leaf.isWritten_ofWord _
  · exact Leaf.isWritten_ofWord _
  · trivial

/-- What is written for totals spells them. -/
theorem spelled_compact (t : Totals) : t.Spelled t.toRecord.compact :=
  .object (Record.spells_compact fun _ => isWritten_of_mem) (Record.members?_toJson _)
    fun _ hm => Record.only?_named t.nodup_names hm

end Totals

/-- Only the name of a cache mode is read as the mode. -/
theorem CacheMode.ofName?_eq_some_iff {s : String} {m : CacheMode} :
    ofName? s = some m ↔ s = m.name := by
  constructor
  · intro h
    unfold ofName? at h
    split at h <;> cases h <;> rfl
  · rintro rfl
    cases m <;> rfl

namespace Json

/-- Exactly the spellings of a word are read as the word. -/
theorem word?_iff_spells {w : UInt64} {cs : List Char} :
    (parse? cs).bind word? = some w ↔ Spells (Json.leaf (.ofWord w)).tokens cs := by
  constructor
  · intro h
    obtain ⟨j, hparse, hword⟩ := Option.bind_eq_some_iff.mp h
    have hspells := parse?_eq_some_iff.mp hparse
    rwa [(word?_eq_some_iff fun _ => hspells.isWritten_of_mem).mp hword] at hspells
  · intro h
    rw [parse?_of_spells h, Option.bind_some, Leaf.word?_ofWord]

/-- Totals, units, formats and cache modes are read from their spellings and from no other texts,
and what is written for them settles. -/
theorem written_forms_settle :
    Settles Totals.ofJson? (fun t => t.toRecord.compact) Totals.Spelled ∧
      Settles word? (fun u => (Leaf.ofWord u).render)
        (fun u => Spells (Json.leaf (.ofWord u)).tokens) ∧
      Settles Format.ofJson? (fun f => f.toLeaf.render) (fun f => SpelledName f.name) ∧
      Settles CacheMode.ofJson? (fun m => m.toLeaf.render) (fun m => SpelledName m.name) :=
  ⟨.of_spelled Totals.ofJson?_eq_some_iff Totals.spelled_compact,
    .of_spelled word?_iff_spells fun u => Leaf.spells_render (Leaf.isWritten_ofWord u),
    .of_spelled (named_eq_some_iff fun _ => Format.ofName?_eq_some_iff) fun f =>
      spelledName_render f.name,
    .of_spelled (named_eq_some_iff fun _ => CacheMode.ofName?_eq_some_iff) fun m =>
      spelledName_render m.name⟩

end Json

end Footprint

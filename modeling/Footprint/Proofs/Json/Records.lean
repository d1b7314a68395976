import Footprint.Json.Record
import Footprint.Proofs.Json.Structure

/-!
# Records are read back

On one line and with one member to a line, a record is written with the tokens of the same
object. So both texts are read as that object, its members are found under the names that were
written, and a name that is written once leads to its value. A number has no other digits than
those that are written for it, so words and truth values are read from their own leaves only.
-/

namespace Footprint.Json

/-- A member is the only one of its name if the others have other names. -/
theorem only?_eq_some_iff {name : List Char} {members : List (List Char × Json)} {j : Json} :
    only? name members = some j ↔ ∃ before after, members = before ++ (name, j) :: after ∧
      ∀ member ∈ before ++ after, member.1 ≠ name := by
  have hfilter : only? name members = some j ↔ members.filter (·.1 = name) = [(name, j)] := by
    constructor
    · intro h
      unfold only? at h
      split at h
      · rename_i member hmembers
        cases h
        have hname : member.1 = name := by
          have hmem : member ∈ members.filter (·.1 = name) := by
            rw [hmembers]
            exact List.mem_singleton_self member
          exact of_decide_eq_true (List.mem_filter.mp hmem).2
        rw [hmembers, ← hname]
      · cases h
    · intro h
      simp only [only?, h]
  simp only [hfilter, List.filter_eq_cons_iff, List.filter_eq_nil_iff, decide_eq_true_eq,
    List.forall_mem_append, ne_eq, true_and]

/-- Where the names of the members are distinct, every member is the only one of its name. -/
theorem only?_of_mem {name : List Char} {members : List (List Char × Json)} {j : Json}
    (hnodup : (members.map (·.1)).Nodup) (h : (name, j) ∈ members) :
    only? name members = some j := by
  obtain ⟨before, after, rfl⟩ := List.append_of_mem h
  refine only?_eq_some_iff.mpr ⟨before, after, rfl, ?_⟩
  rw [List.map_append, List.map_cons, List.perm_middle.nodup_iff, List.nodup_cons,
    ← List.map_append] at hnodup
  intro member hmember hname
  exact hnodup.1 (List.mem_map.mpr ⟨member, hmember, hname⟩)

/-- The members under their names are those of the object. -/
theorem exists_mem_of_members? {members named : List (List Char × Json)}
    (h : (Json.object members).members? = some named) {member : List Char × Json}
    (hmember : member ∈ named) : ∃ written, (written, member.2) ∈ members := by
  induction members generalizing named with
  | nil =>
    cases h
    cases hmember
  | cons first members ih =>
    rw [members?, List.mapM_cons] at h
    obtain ⟨one, hone, h⟩ := Option.bind_eq_some_iff.mp h
    obtain ⟨others, hothers, h⟩ := Option.bind_eq_some_iff.mp h
    cases h
    obtain ⟨name, _, rfl⟩ := Option.map_eq_some_iff.mp hone
    rcases List.mem_cons.mp hmember with rfl | hmember
    · exact ⟨first.1, List.mem_cons_self⟩
    · obtain ⟨written, hwritten⟩ := ih hothers hmember
      exact ⟨written, List.mem_cons_of_mem _ hwritten⟩

/-- The only member of a name can be read if the object can. -/
theorem IsWritten.of_only? {members named : List (List Char × Json)}
    (h : (Json.object members).IsWritten) (hnamed : (Json.object members).members? = some named)
    {name : List Char} {value : Json} (honly : only? name named = some value) :
    value.IsWritten := by
  obtain ⟨before, after, rfl, _⟩ := only?_eq_some_iff.mp honly
  obtain ⟨written, hmember⟩ := exists_mem_of_members? hnamed
    (List.mem_append_right before List.mem_cons_self)
  exact fun leaf hleaf => h leaf (tokens_subset_object hmember hleaf)

namespace Leaf

theorem isWritten_ofWord (w : UInt64) : (ofWord w).IsWritten :=
  isNumber_toDigits w.toNat

theorem isWritten_ofNat (n : Nat) : (ofNat n).IsWritten :=
  isNumber_toDigits n

theorem isWritten_ofText (s : String) : (ofText s).IsWritten :=
  stringBody_escape s.toList

/-- The text of a leaf holds the leaf alone. -/
theorem spells_render {value : Leaf} (h : value.IsWritten) :
    Spells (Json.leaf value).tokens value.render := by
  have hspells := Spells.leaf h separated_nil .nil
  rwa [List.append_nil] at hspells

/-- A word is read from its own leaf. -/
theorem word?_ofWord (w : UInt64) : word? (.leaf (ofWord w)) = some w := by
  rw [ofWord, word?, Text.numeral?_toDigits, Option.bind_some, Word.ofNat?_eq_some_iff]

/-- A text is read from its own leaf. -/
theorem text?_ofText (s : String) : text? (.leaf (ofText s)) = some s.toList :=
  unescape?_escape s.toList

end Leaf

/-- A word is written in only one way. -/
theorem word?_eq_some_iff {j : Json} (h : j.IsWritten) {w : UInt64} :
    j.word? = some w ↔ j = .leaf (.ofWord w) := by
  constructor
  · intro hword
    unfold word? at hword
    split at hword
    · rename_i written
      obtain ⟨n, hn, hw⟩ := Option.bind_eq_some_iff.mp hword
      have hnumber : IsNumber written := h _ (List.mem_singleton_self _)
      rw [eq_toDigits_of_numeral? hnumber hn, ← Word.ofNat?_eq_some_iff.mp hw, Leaf.ofWord]
    · cases hword
  · rintro rfl
    exact Leaf.word?_ofWord w

/-- A truth value is written in only one way. -/
theorem bool?_eq_some_iff {j : Json} {b : Bool} : j.bool? = some b ↔ j = .leaf (.bool b) := by
  constructor
  · intro hbool
    unfold bool? at hbool
    split at hbool
    · cases hbool
      rfl
    · cases hbool
  · rintro rfl
    rfl

namespace Record

/-- The members of a record under the names that were written. -/
def named (r : Record) : List (List Char × Json) :=
  r.map fun member => (member.1.toList, .leaf member.2)

/-- The members of the object that a record is written as are those of the record. -/
theorem members?_toJson (r : Record) : r.toJson.members? = some r.named := by
  induction r with
  | nil => rfl
  | cons member r ih =>
    rw [toJson, members?] at ih ⊢
    rw [List.map_cons, List.mapM_cons, unescape?_escape, ih]
    rfl

/-- Distinct names are distinct as they are found. -/
theorem nodup_named {r : Record} (h : (r.map (·.1)).Nodup) : (r.named.map (·.1)).Nodup := by
  have hnames : r.named.map (·.1) = (r.map (·.1)).map String.toList := by
    simp only [named, List.map_map, Function.comp_def]
  rw [hnames]
  exact List.Pairwise.map String.toList (fun _ _ hne heq => hne (String.toList_inj.mp heq)) h

/-- Where the names of a record are distinct, every member is found by its name. -/
theorem only?_named {r : Record} {name : String} {value : Leaf}
    (hnodup : (r.map (·.1)).Nodup) (h : (name, value) ∈ r) :
    only? name.toList r.named = some (.leaf value) :=
  only?_of_mem (nodup_named hnodup) (List.mem_map.mpr ⟨(name, value), h, rfl⟩)

/-- A member with blanks before its name and before its value. -/
def memberText (before between : List Char) (member : String × Leaf) : List Char :=
  before ++ (renderName member.1 ++ ':' :: (between ++ member.2.render))

section Spelled

variable {before between gap : List Char} {tokens : List Token} {cs : List Char}
  (hbefore : ∀ c ∈ before, Scan.isSpace c = true) (hbetween : ∀ c ∈ between, Scan.isSpace c = true)
  (hgap : ∀ c ∈ gap, Scan.isSpace c = true)

include hbefore hbetween

/-- A member is its name, a colon and its value. -/
theorem spells_memberText {member : String × Leaf} (hvalue : member.2.IsWritten)
    (hend : Separated cs) (hrest : Spells tokens cs) :
    Spells (.leaf (.ofText member.1) :: .colon :: .leaf member.2 :: tokens)
      (memberText before between member ++ cs) := by
  have hvalues := (Spells.leaf hvalue hend hrest).spaces hbetween
  have hcolon := Spells.mark (c := ':') rfl hvalues
  have hname := Spells.leaf (Leaf.isWritten_ofText member.1)
    (separated_cons (by decide) _) hcolon
  have htext := hname.spaces hbefore
  simpa only [memberText, renderName, List.append_assoc, List.cons_append] using htext

include hgap

/-- Members with a comma and blanks between any two of them are an object up to its end. -/
theorem spells_members {r : Record} (member : String × Leaf)
    (h : ∀ m ∈ member :: r, m.2.IsWritten) (hend : Separated cs)
    (hrest : Spells [.objectEnd] cs) :
    Spells (.leaf (.ofText member.1) :: .colon :: .leaf member.2 ::
        memberTokens (r.map fun m => (escape m.1.toList, .leaf m.2)))
      (List.intercalate (',' :: gap) ((member :: r).map (memberText before between)) ++ cs) := by
  induction r generalizing member with
  | nil =>
    rw [List.map_singleton, List.intercalate_singleton]
    exact spells_memberText hbefore hbetween (h member List.mem_cons_self) hend hrest
  | cons next r ih =>
    obtain ⟨hvalue, hvalues⟩ := List.forall_mem_cons.mp h
    have hmembers := (ih next hvalues).spaces hgap
    have hcomma := Spells.mark (c := ',') rfl hmembers
    have htext := spells_memberText hbefore hbetween hvalue (separated_cons (by decide) _) hcomma
    have hform : List.intercalate (',' :: gap)
          ((member :: next :: r).map (memberText before between)) =
        memberText before between member ++ (',' :: gap) ++
          List.intercalate (',' :: gap) ((next :: r).map (memberText before between)) :=
      List.intercalate_cons_cons
    rw [hform, List.append_assoc, List.append_assoc]
    exact htext

end Spelled

/-- A record on one line is written with the tokens of its object. -/
theorem spells_compact {r : Record} (h : ∀ m ∈ r, m.2.IsWritten) :
    Spells r.toJson.tokens r.compact := by
  have hclose : Spells [.objectEnd] ['}'] := .mark rfl .nil
  cases r with
  | nil => exact .mark rfl hclose
  | cons member r =>
    have hnone : ∀ c ∈ ([] : List Char), Scan.isSpace c = true := List.forall_mem_nil _
    exact .mark rfl (spells_members hnone hnone hnone member h (separated_cons (by decide) _)
      hclose)

/-- A record with one member to a line is written with the tokens of its object. -/
theorem spells_pretty {r : Record} (h : ∀ m ∈ r, m.2.IsWritten) :
    Spells r.toJson.tokens r.pretty := by
  cases r with
  | nil => exact .mark rfl (.mark rfl .nil)
  | cons member r =>
    have hclose : Spells [.objectEnd] ['\n', '}'] := .space rfl (.mark rfl .nil)
    have hindent : ∀ c ∈ [' ', ' '], Scan.isSpace c = true := List.all_eq_true.mp rfl
    have hgap : ∀ c ∈ ['\n'], Scan.isSpace c = true := List.all_eq_true.mp rfl
    have hspace : ∀ c ∈ [' '], Scan.isSpace c = true := List.all_eq_true.mp rfl
    exact .mark rfl (.space rfl (spells_members hindent hspace hgap member h
      (separated_cons (by decide) _) hclose))

end Record

end Footprint.Json

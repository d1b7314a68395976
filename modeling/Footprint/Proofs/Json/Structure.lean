import Footprint.Json.Value
import Footprint.Proofs.Json.Spelling

/-!
# Values from the tokens of their texts

The tokens of a value are the brackets, commas and colons of its arrays and objects around the
leaves. Building a value from them gives the value back, in any arrays and objects around it, so
a text that spells the tokens of a value is read as that value. No other tokens make it up: what
has been read inside the open arrays and objects always has the tokens taken so far.
-/

namespace Footprint.Json

mutual

/-- The tokens of a value. -/
def tokens : Json → List Token
  | .leaf value => [.leaf value]
  | .array [] => [.arrayBegin, .arrayEnd]
  | .array (item :: items) => .arrayBegin :: (item.tokens ++ itemTokens items)
  | .object [] => [.objectBegin, .objectEnd]
  | .object ((name, value) :: members) =>
    .objectBegin :: .leaf (.string name) :: .colon :: (value.tokens ++ memberTokens members)

/-- The tokens of the items after the first one, up to the end of the array. -/
def itemTokens : List Json → List Token
  | [] => [.arrayEnd]
  | item :: items => .comma :: (item.tokens ++ itemTokens items)

/-- The tokens of the members after the first one, up to the end of the object. -/
def memberTokens : List (List Char × Json) → List Token
  | [] => [.objectEnd]
  | (name, value) :: members =>
    .comma :: .leaf (.string name) :: .colon :: (value.tokens ++ memberTokens members)

end

namespace Machine

/-- The first item of an array begins like any other value. -/
theorem foldlM_step_firstItem (j : Json) (frames : List Frame) (rest : List Token) :
    (j.tokens ++ rest).foldlM step ⟨.arrayBegun, frames⟩ =
      (j.tokens ++ rest).foldlM step ⟨.value, .array [] :: frames⟩ := by
  match j with
  | .leaf _ | .array [] | .array (_ :: _) | .object [] | .object ((_, _) :: _) =>
    simp only [tokens]
    rfl

mutual

/-- The tokens of a value build it inside any frames. -/
theorem foldlM_step_tokens (j : Json) (frames : List Frame) :
    j.tokens.foldlM step ⟨.value, frames⟩ = some ⟨.complete j, frames⟩ := by
  match j with
  | .leaf _ => rfl
  | .array [] => rfl
  | .array (item :: items) =>
    rw [tokens, List.foldlM_cons]
    change (item.tokens ++ itemTokens items).foldlM step ⟨.arrayBegun, frames⟩ = _
    rw [foldlM_step_firstItem, List.foldlM_append, foldlM_step_tokens item]
    exact foldlM_step_itemTokens items item [] frames
  | .object [] => rfl
  | .object ((name, value) :: members) =>
    rw [tokens]
    change (value.tokens ++ memberTokens members).foldlM step
      ⟨.value, .object [] name :: frames⟩ = _
    rw [List.foldlM_append, foldlM_step_tokens value]
    exact foldlM_step_memberTokens members name value [] frames

/-- The tokens of the items after a complete one build the array. -/
theorem foldlM_step_itemTokens (items : List Json) (item : Json) (before : List Json)
    (frames : List Frame) :
    (itemTokens items).foldlM step ⟨.complete item, .array before :: frames⟩ =
      some ⟨.complete (.array ((item :: before).reverse ++ items)), frames⟩ := by
  match items with
  | [] =>
    rw [List.append_nil]
    rfl
  | next :: items =>
    rw [itemTokens]
    change (next.tokens ++ itemTokens items).foldlM step
      ⟨.value, .array (item :: before) :: frames⟩ = _
    rw [List.foldlM_append, foldlM_step_tokens next]
    refine (foldlM_step_itemTokens items next (item :: before) frames).trans ?_
    rw [List.reverse_cons, List.append_assoc, List.singleton_append]

/-- The tokens of the members after a complete one build the object. -/
theorem foldlM_step_memberTokens (members : List (List Char × Json)) (name : List Char)
    (value : Json) (before : List (List Char × Json)) (frames : List Frame) :
    (memberTokens members).foldlM step ⟨.complete value, .object before name :: frames⟩ =
      some ⟨.complete (.object (((name, value) :: before).reverse ++ members)), frames⟩ := by
  match members with
  | [] =>
    rw [List.append_nil]
    rfl
  | (other, next) :: members =>
    rw [memberTokens]
    change (next.tokens ++ memberTokens members).foldlM step
      ⟨.value, .object ((name, value) :: before) other :: frames⟩ = _
    rw [List.foldlM_append, foldlM_step_tokens next]
    refine (foldlM_step_memberTokens members other next ((name, value) :: before) frames).trans ?_
    rw [List.reverse_cons, List.append_assoc, List.singleton_append]

end

end Machine

/-- The tokens of a value make it up. -/
theorem ofTokens?_tokens (j : Json) : ofTokens? j.tokens = some j := by
  rw [ofTokens?, Machine.start, Machine.foldlM_step_tokens]
  rfl

/-- The tokens of an array up to its next item; the items before it stand last first. -/
def tokensBefore : List Json → List Token
  | [] => [.arrayBegin]
  | item :: items => tokensBefore items ++ (item.tokens ++ [.comma])

/-- The tokens of an object up to its next name; the members before it stand last first. -/
def tokensBeforeName : List (List Char × Json) → List Token
  | [] => [.objectBegin]
  | (name, value) :: members =>
    tokensBeforeName members ++ (.leaf (.string name) :: .colon :: (value.tokens ++ [.comma]))

/-- An array is what stands before an item, the item and what follows it. -/
theorem tokens_array_append (before : List Json) (item : Json) (items : List Json) :
    (Json.array ((item :: before).reverse ++ items)).tokens =
      tokensBefore before ++ (item.tokens ++ itemTokens items) := by
  induction before generalizing item items with
  | nil =>
    rw [List.reverse_singleton, List.singleton_append, tokens]
    rfl
  | cons last before ih =>
    have hitems := ih last (item :: items)
    rw [itemTokens] at hitems
    rw [tokensBefore, List.append_assoc, List.append_assoc, List.singleton_append, ← hitems,
      List.reverse_cons, List.append_assoc, List.singleton_append]

/-- An object is what stands before a name, the name with its value and what follows them. -/
theorem tokens_object_append (before : List (List Char × Json)) (name : List Char) (value : Json)
    (members : List (List Char × Json)) :
    (Json.object (((name, value) :: before).reverse ++ members)).tokens =
      tokensBeforeName before ++
        (.leaf (.string name) :: .colon :: (value.tokens ++ memberTokens members)) := by
  induction before generalizing name value members with
  | nil =>
    rw [List.reverse_singleton, List.singleton_append, tokens]
    rfl
  | cons last before ih =>
    have hmembers := ih last.1 last.2 ((name, value) :: members)
    rw [memberTokens] at hmembers
    simp only [tokensBeforeName, List.append_assoc, List.cons_append, List.nil_append,
      List.reverse_cons] at hmembers ⊢
    exact hmembers

/-- The tokens of an item are among those of the array. -/
theorem tokens_subset_array {item : Json} {items : List Json} (h : item ∈ items) :
    item.tokens ⊆ (Json.array items).tokens := by
  obtain ⟨before, after, rfl⟩ := List.append_of_mem h
  have htokens := tokens_array_append before.reverse item after
  rw [List.reverse_cons, List.reverse_reverse, List.append_assoc, List.singleton_append] at htokens
  rw [htokens]
  exact List.subset_append_of_subset_right _ (List.subset_append_left _ _)

/-- The tokens of the value of a member are among those of the object. -/
theorem tokens_subset_object {name : List Char} {value : Json}
    {members : List (List Char × Json)} (h : (name, value) ∈ members) :
    value.tokens ⊆ (Json.object members).tokens := by
  obtain ⟨before, after, rfl⟩ := List.append_of_mem h
  have htokens := tokens_object_append before.reverse name value after
  rw [List.reverse_cons, List.reverse_reverse, List.append_assoc, List.singleton_append] at htokens
  rw [htokens]
  exact List.subset_append_of_subset_right _ (List.subset_cons_of_subset _
    (List.subset_cons_of_subset _ (List.subset_append_left _ _)))

/-- The leaves of the value and the names in it are ones that can be read. -/
def IsWritten (j : Json) : Prop :=
  ∀ value, .leaf value ∈ j.tokens → value.IsWritten

/-- The items of an array can be read if the array can. -/
theorem IsWritten.of_item {item : Json} {items : List Json}
    (h : (Json.array items).IsWritten) (hitem : item ∈ items) : item.IsWritten :=
  fun leaf hleaf => h leaf (tokens_subset_array hitem hleaf)

/-- The tokens of an array or object up to the value that is being read. -/
def Frame.tokens : Frame → List Token
  | .array items => tokensBefore items
  | .object members name => tokensBeforeName members ++ [.leaf (.string name), .colon]

/-- The tokens of what has just been read. -/
def Focus.tokens : Focus → List Token
  | .value => []
  | .arrayBegun => tokensBefore []
  | .objectBegun => tokensBeforeName []
  | .name members => tokensBeforeName members
  | .colon members written => tokensBeforeName members ++ [.leaf (.string written)]
  | .complete j => j.tokens

namespace Machine

variable {m m' : Machine} {frames : List Frame} {token : Token}

/-- The tokens that a machine has taken. -/
def taken (m : Machine) : List Token :=
  m.frames.reverse.flatMap Frame.tokens ++ m.focus.tokens

/-- The tokens taken inside one more array or object. -/
theorem taken_cons (focus : Focus) (frame : Frame) (frames : List Frame) :
    taken ⟨focus, frame :: frames⟩ =
      frames.reverse.flatMap Frame.tokens ++ (frame.tokens ++ focus.tokens) := by
  simp only [taken, List.reverse_cons, List.flatMap_append, List.flatMap_cons, List.flatMap_nil,
    List.append_nil, List.append_assoc]

/-- The first token of a value is taken. -/
theorem taken_of_begin? (h : begin? frames token = some m) :
    m.taken = taken ⟨.value, frames⟩ ++ [token] := by
  unfold begin? at h
  split at h
  case h_4 => cases h
  all_goals
    cases h
    simp only [taken, Focus.tokens, List.append_nil]
    rfl

/-- The token after a complete value is taken. -/
theorem taken_of_continue? {value : Json} (h : continue? value frames token = some m) :
    m.taken = taken ⟨.complete value, frames⟩ ++ [token] := by
  unfold continue? at h
  split at h
  all_goals cases h
  · simp only [taken_cons, Frame.tokens, Focus.tokens, tokensBefore, List.append_assoc,
      List.append_nil]
  · rename_i items frames
    have harray := tokens_array_append items value []
    rw [List.append_nil] at harray
    rw [taken_cons, taken, Focus.tokens, harray]
    simp only [Frame.tokens, Focus.tokens, itemTokens, List.append_assoc]
  · rename_i members name frames
    rw [taken_cons, taken]
    simp only [Frame.tokens, Focus.tokens, tokensBeforeName, List.append_assoc, List.cons_append,
      List.nil_append]
  · rename_i members name frames
    have hobject := tokens_object_append members name value []
    rw [List.append_nil] at hobject
    rw [taken_cons, taken, Focus.tokens, hobject]
    simp only [Frame.tokens, Focus.tokens, memberTokens, List.append_assoc, List.cons_append,
      List.nil_append]

/-- A machine takes one token at a time. -/
theorem taken_of_step (h : m.step token = some m') : m'.taken = m.taken ++ [token] := by
  obtain ⟨focus, frames⟩ := m
  unfold step at h
  split at h
  case h_1 hfocus =>
    cases hfocus
    exact taken_of_begin? h
  case h_2 hfocus =>
    cases hfocus
    cases h
    simp only [taken, Focus.tokens, tokens, tokensBefore, List.append_assoc, List.cons_append,
      List.nil_append]
  case h_3 hfocus _ =>
    cases hfocus
    rw [taken_of_begin? h, taken_cons, taken]
    simp only [Frame.tokens, Focus.tokens, List.append_nil]
  case h_4 hfocus =>
    cases hfocus
    cases h
    simp only [taken, Focus.tokens, tokens, tokensBeforeName, List.append_assoc, List.cons_append,
      List.nil_append]
  case h_5 hfocus =>
    cases hfocus
    cases h
    simp only [taken, Focus.tokens, List.append_assoc]
  case h_6 hfocus =>
    cases hfocus
    cases h
    simp only [taken, Focus.tokens, List.append_assoc]
  case h_7 hfocus =>
    cases hfocus
    cases h
    rw [taken_cons, taken]
    simp only [Frame.tokens, Focus.tokens, List.append_assoc, List.append_nil, List.cons_append,
      List.nil_append]
  case h_8 hfocus =>
    cases hfocus
    exact taken_of_continue? h
  case h_9 => cases h

/-- A machine has taken all the tokens of a run. -/
theorem taken_of_foldlM {tokens : List Token} (h : tokens.foldlM step m = some m') :
    m'.taken = m.taken ++ tokens := by
  induction tokens generalizing m with
  | nil =>
    cases h
    rw [List.append_nil]
  | cons token tokens ih =>
    rw [List.foldlM_cons] at h
    obtain ⟨next, hnext, hrest⟩ := Option.bind_eq_some_iff.mp h
    rw [ih hrest, taken_of_step hnext, List.append_assoc, List.singleton_append]

/-- No leaf is taken after a complete value. -/
theorem step_complete_leaf (j : Json) (frames : List Frame) (value : Leaf) :
    step ⟨.complete j, frames⟩ (.leaf value) = none := by
  rcases frames with _ | ⟨_ | _, frames⟩ <;> rfl

/-- No leaf is taken directly after a leaf. -/
theorem step_leaf_leaf {value : Leaf} (h : m.step (.leaf value) = some m') (next : Leaf) :
    m'.step (.leaf next) = none := by
  obtain ⟨focus, frames⟩ := m
  -- the leaf has become a complete value or the name of a member
  cases focus with
  | value | arrayBegun =>
    cases h
    exact step_complete_leaf _ _ next
  | objectBegun | name =>
    cases value with
    | string =>
      cases h
      rfl
    | null | bool | number => cases h
  | colon => cases h
  | complete j => cases (step_complete_leaf j frames value).symm.trans h

end Machine

/-- Exactly the tokens of a value make it up. -/
theorem ofTokens?_eq_some_iff {tokens : List Token} {j : Json} :
    ofTokens? tokens = some j ↔ tokens = j.tokens := by
  constructor
  · intro h
    obtain ⟨⟨focus, frames⟩, hrun, hfinish⟩ := Option.bind_eq_some_iff.mp h
    unfold Machine.finish at hfinish
    split at hfinish
    · rename_i value hfocus hframes
      cases hfinish
      have htaken := Machine.taken_of_foldlM hrun
      rw [Machine.taken, hframes, hfocus] at htaken
      exact htaken.symm
    · cases hfinish
  · rintro rfl
    exact ofTokens?_tokens j

/-- A text that spells the tokens of a value is read as the value. -/
theorem parse?_of_spells {j : Json} {cs : List Char} (h : Spells j.tokens cs) :
    parse? cs = some j := by
  rw [parse?, tokens?_of_spells h, Option.bind_some, ofTokens?_tokens]

end Footprint.Json

import Retag.Proofs.Results
import Retag.Proofs.Markup.Layout
import Retag.Markup.Tree

/-! Trees read from the tokens of an outline. Every node is read as it stands in the outline, with its tag. -/

namespace Retag.Markup

namespace Outline

mutual

/-- The tree that is read for an outline. --/
def tree : Outline → Tree
  | .alias name => .alias name
  | .scalar anchor tag text _ => .scalar anchor tag text
  | .seq anchor items => .seq anchor .seq (trees items)
  | .map anchor tag entries => .map anchor tag (treeEntries entries)

/-- The trees of items. --/
def trees : List Outline → List Tree
  | [] => []
  | o :: rest => o.tree :: trees rest

/-- The trees of entries. --/
def treeEntries : List (Outline × Outline) → List (Tree × Tree)
  | [] => []
  | (k, v) :: rest => (k.tree, v.tree) :: treeEntries rest

end

/-- The anchors that are known behind an anchor, which is a new one. --/
def defining (known : List String) (anchor : Option String) : Option (List String) :=
  match anchor with
  | none => some known
  | some name => if known.contains name then none else some (name :: known)

mutual

/-- The anchors that are known behind a node, if every alias names a known one. --/
def scope (known : List String) : Outline → Option (List String)
  | .alias name => if known.contains name then some known else none
  | .scalar anchor .. => defining known anchor
  | .seq anchor items => do scopeItems (← defining known anchor) items
  | .map anchor _ entries => do scopeEntries (← defining known anchor) entries

/-- The anchors that are known behind items. --/
def scopeItems (known : List String) : List Outline → Option (List String)
  | [] => some known
  | o :: rest => do scopeItems (← scope known o) rest

/-- The anchors that are known behind entries. --/
def scopeEntries (known : List String) : List (Outline × Outline) → Option (List String)
  | [] => some known
  | (k, v) :: rest => do scopeEntries (← scope (← scope known k) v) rest

end

end Outline

namespace Reader

open Outline

variable {fault : Option Fault} {known known' : List String} {anchor : Option String} {ts rest : List Token}
  {t : Token} {fuel : Nat} {place : Reader.Place}

/-! ### Properties -/

/-- The properties that an anchor and a tag are read as. --/
def asProperties (anchor : Option String) (shown : Option Tag) : Properties :=
  ⟨anchor, shown.map fun t => Tag.stem ++ String.ofList ((Outline.tagText t).drop 2)⟩

/-- The tokens of an anchor and a tag. --/
def propertyTokens (anchor : Option String) (shown : Option Tag) : List Token :=
  anchorTokens anchor ++ (shown.map tagToken).toList

/-- Whether a token is no property of a node. --/
def isContent : Token → Bool
  | .alias _ | .anchor _ | .tag .. => false
  | _ => true

theorem peek_cons : peek ⟨t :: ts, fault, known⟩ = .ok t := rfl

theorem properties_tokens (shown : Option Tag) (ht : isContent t = true) :
    properties Handles.standard ⟨propertyTokens anchor shown ++ t :: rest, fault, known⟩ =
      .ok (asProperties anchor shown, ⟨t :: rest, fault, known⟩) := by
  cases anchor <;> cases shown <;> cases t <;> first | rfl | cases ht

theorem define_asProperties (shown : Option Tag) (h : defining known anchor = some known') :
    define ⟨ts, fault, known⟩ (asProperties anchor shown) = .ok ⟨ts, fault, known'⟩ := by
  cases anchor with
  | none =>
    cases h
    rfl
  | some name =>
    simp only [defining] at h
    simp only [define, asProperties]
    split at h
    · cases h
    · rename_i hnew
      cases h
      rw [if_neg hnew]

theorem asked_asProperties {tag : Tag} (htag : ∀ t, tag ≠ .other t) (anchor : Option String) :
    (asProperties anchor (some tag)).asked = some tag := by
  cases tag
  case other t => exact absurd rfl (htag t)
  all_goals rfl

/-! ### Nodes -/

/-- The first token of a node with content is no alias. --/
theorem peek_propertyTokens (shown : Option Tag) (ht : isContent t = true) :
    ∃ t', peek ⟨propertyTokens anchor shown ++ t :: rest, fault, known⟩ = .ok t' ∧ ∀ name, t' ≠ .alias name := by
  cases anchor with
  | some name => exact ⟨_, rfl, nofun⟩
  | none =>
    cases shown with
    | some tag => exact ⟨_, rfl, nofun⟩
    | none =>
      refine ⟨t, rfl, ?_⟩
      rintro name rfl
      cases ht

theorem node_scalar (shown : Option Tag) (text : Text.Wobbly) (plain : Bool) (h : defining known anchor = some known') :
    node Handles.standard (fuel + 1) place
        ⟨propertyTokens anchor shown ++ .scalar text plain :: rest, fault, known⟩ =
      .ok (.scalar anchor ((asProperties anchor shown).scalarTag text plain) text, ⟨rest, fault, known'⟩) := by
  obtain ⟨t', hpeek, hne⟩ := @peek_propertyTokens fault known anchor rest (.scalar text plain) shown rfl
  rw [node, hpeek, ok_bind]
  split
  · rename_i name
    exact absurd rfl (hne name)
  · rw [properties_tokens shown rfl, ok_bind]
    simp only [peek_cons, ok_bind, define_asProperties shown h]
    rfl

/-- A row of items is read as a node, in the place of an entry. --/
theorem node_loose (shown : Option Tag) (h : defining known anchor = some known') {items : List Tree} {r : Reader}
    (hitems : looseItems Handles.standard fuel ⟨.blockEntry :: rest, fault, known'⟩ = .ok (items, r)) :
    node Handles.standard (fuel + 1) .entry ⟨propertyTokens anchor shown ++ .blockEntry :: rest, fault, known⟩ =
      .ok (.seq anchor ((asProperties anchor shown).collectionTag .seq) items, r) := by
  obtain ⟨t', hpeek, hne⟩ := @peek_propertyTokens fault known anchor rest .blockEntry shown rfl
  rw [node, hpeek, ok_bind]
  split
  · rename_i name
    exact absurd rfl (hne name)
  · rw [properties_tokens shown rfl, ok_bind]
    simp only [peek_cons, ok_bind, define_asProperties shown h, hitems]
    rfl

theorem node_items (shown : Option Tag) (hplace : place ≠ .flow) (h : defining known anchor = some known')
    {items : List Tree} {r : Reader}
    (hitems : blockItems Handles.standard fuel ⟨rest, fault, known'⟩ = .ok (items, r)) :
    node Handles.standard (fuel + 1) place ⟨propertyTokens anchor shown ++ .blockSequenceStart :: rest, fault, known⟩ =
      .ok (.seq anchor ((asProperties anchor shown).collectionTag .seq) items, r) := by
  obtain ⟨t', hpeek, hne⟩ := @peek_propertyTokens fault known anchor rest .blockSequenceStart shown rfl
  rw [node, hpeek, ok_bind]
  split
  · rename_i name
    exact absurd rfl (hne name)
  · rw [properties_tokens shown rfl, ok_bind]
    simp only [peek_cons, ok_bind, define_asProperties shown h, drop, List.tail_cons]
    cases place
    · exact absurd rfl hplace
    all_goals
      simp only [hitems]
      rfl

theorem node_entries (shown : Option Tag) (hplace : place ≠ .flow) (h : defining known anchor = some known')
    {entries : List (Tree × Tree)} {r : Reader}
    (hentries : blockEntries Handles.standard fuel ⟨rest, fault, known'⟩ = .ok (entries, r)) :
    node Handles.standard (fuel + 1) place ⟨propertyTokens anchor shown ++ .blockMappingStart :: rest, fault, known⟩ =
      .ok (.map anchor ((asProperties anchor shown).collectionTag .map) entries, r) := by
  obtain ⟨t', hpeek, hne⟩ := @peek_propertyTokens fault known anchor rest .blockMappingStart shown rfl
  rw [node, hpeek, ok_bind]
  split
  · rename_i name
    exact absurd rfl (hne name)
  · rw [properties_tokens shown rfl, ok_bind]
    simp only [peek_cons, ok_bind, define_asProperties shown h, drop, List.tail_cons]
    cases place
    · exact absurd rfl hplace
    all_goals
      simp only [hentries]
      rfl

theorem node_noItems (shown : Option Tag) (h : defining known anchor = some known') :
    node Handles.standard (fuel + 2) place
        ⟨propertyTokens anchor shown ++ .flowSequenceStart :: .flowSequenceEnd :: rest, fault, known⟩ =
      .ok (.seq anchor ((asProperties anchor shown).collectionTag .seq) [], ⟨rest, fault, known'⟩) := by
  obtain ⟨t', hpeek, hne⟩ :=
    @peek_propertyTokens fault known anchor (.flowSequenceEnd :: rest) .flowSequenceStart shown rfl
  rw [node, hpeek, ok_bind]
  split
  · rename_i name
    exact absurd rfl (hne name)
  · rw [properties_tokens shown rfl, ok_bind]
    simp only [peek_cons, ok_bind, define_asProperties shown h, drop, List.tail_cons, flowItems]
    rfl

theorem node_noEntries (shown : Option Tag) (h : defining known anchor = some known') :
    node Handles.standard (fuel + 2) place
        ⟨propertyTokens anchor shown ++ .flowMappingStart :: .flowMappingEnd :: rest, fault, known⟩ =
      .ok (.map anchor ((asProperties anchor shown).collectionTag .map) [], ⟨rest, fault, known'⟩) := by
  obtain ⟨t', hpeek, hne⟩ :=
    @peek_propertyTokens fault known anchor (.flowMappingEnd :: rest) .flowMappingStart shown rfl
  rw [node, hpeek, ok_bind]
  split
  · rename_i name
    exact absurd rfl (hne name)
  · rw [properties_tokens shown rfl, ok_bind]
    simp only [peek_cons, ok_bind, define_asProperties shown h, drop, List.tail_cons, flowEntries]
    rfl

/-! ### Outlines -/

/-- The tag of a text if it is written out, and whether the text is plain. --/
def shownScalar (simple : Bool) (tag : Tag) (text : Text.Wobbly) (literal : Bool) : Option Tag × Bool :=
  match text with
  | .whole s =>
    let style := Style.choose tag s.toList literal simple
    (if showsTag style tag s.toList then none else some tag, style = .plain)
  | .torn _ => (none, false)

theorem scalarTag_eq {simple simple' literal : Bool} {tag : Tag} {text : Text.Wobbly} (htag : ∀ t, tag ≠ .other t)
    (hclear : IsClearText simple' tag text literal) (anchor : Option String) :
    (asProperties anchor (shownScalar simple tag text literal).1).scalarTag text
      (shownScalar simple tag text literal).2 = tag := by
  cases text with
  | torn t => exact (show tag = .str from hclear).symm
  | whole s =>
    simp only [shownScalar]
    by_cases hshown : showsTag (Style.choose tag s.toList literal simple) tag s.toList = true
    · rw [if_pos hshown]
      simp only [showsTag] at hshown
      split at hshown
      · rename_i hplain
        rw [decide_eq_true hplain]
        exact (beq_iff_eq.mp hshown).symm
      · rename_i hplain
        rw [decide_eq_false hplain]
        exact (beq_iff_eq.mp hshown).symm
    · simp only [if_neg hshown, Properties.scalarTag, asked_asProperties htag]

theorem scalarTokens_eq {simple literal : Bool} {tag : Tag} (text : Text.Wobbly) :
    anchorTokens anchor ++ scalarTokens simple tag text literal =
      propertyTokens anchor (shownScalar simple tag text literal).1 ++
        [.scalar text (shownScalar simple tag text literal).2] := by
  cases text with
  | torn t => simp [scalarTokens, propertyTokens, shownScalar]
  | whole s =>
    simp only [scalarTokens, wholeTokens, propertyTokens, shownScalar]
    split <;> simp

/-- The tag of a mapping that is written out. --/
def shownTag (tag : Tag) : Option Tag :=
  if tag = .map then none else some tag

theorem collectionTag_eq {tag : Tag} (htag : ∀ t, tag ≠ .other t) (anchor : Option String) :
    (asProperties anchor (shownTag tag)).collectionTag .map = tag := by
  unfold shownTag
  split
  · rename_i h
    exact h.symm
  · rw [Properties.collectionTag, asked_asProperties htag, Option.getD_some]

theorem mapTokens_eq (tag : Tag) :
    anchorTokens anchor ++ (if tag = .map then [] else [tagToken tag]) = propertyTokens anchor (shownTag tag) := by
  unfold shownTag propertyTokens
  split <;> rfl

/-- Whether a row of tokens goes on with something else than an item. --/
def GoesOn (rest : List Token) : Prop :=
  ∃ t ts, rest = t :: ts ∧ t ≠ .blockEntry

theorem goesOn_entries (es : List (Outline × Outline)) (rest : List Token) :
    GoesOn (entriesTokens es ++ .blockEnd :: rest) := by
  cases es with
  | nil => exact ⟨_, _, rfl, nofun⟩
  | cons e es =>
    rw [entriesTokens]
    exact ⟨_, _, rfl, nofun⟩

/-- Where a node of an outline is read, given what comes behind it: only in a mapping its items need no marks. --/
def Fits (place : Outline.Place) (as : Reader.Place) (rest : List Token) : Prop :=
  match place with
  | .root | .item => as = .block
  | .simpleKey | .entry => as = .entry ∧ GoesOn rest

theorem Fits.ne_flow {place : Outline.Place} {as : Reader.Place} (h : Fits place as rest) : as ≠ .flow := by
  rintro rfl
  cases place
  · cases h
  · cases h
  · cases h.1
  · cases h.1

/-- Whether a token starts a node, wherever the node stands. --/
def startsNode : Token → Bool
  | .alias _ | .anchor _ | .tag .. | .scalar .. | .flowSequenceStart | .flowMappingStart | .blockSequenceStart
  | .blockMappingStart => true
  | _ => false

/-- A node starts with such a token, or in a mapping with its first item. --/
theorem head_tokens : (o : Outline) → (place : Outline.Place) → (indenting : Bool) →
    ∃ t ts, o.tokens place indenting = t :: ts ∧
      (startsNode t = true ∨ (t = .blockEntry ∧ (place = .entry ∨ place = .simpleKey)))
  | .alias name, _, _ => ⟨_, _, rfl, .inl rfl⟩
  | .scalar (some name) tag text literal, _, _ => ⟨_, _, rfl, .inl rfl⟩
  | .scalar none tag text literal, _, _ => by
    simp only [Outline.tokens, scalarTokens, wholeTokens, anchorTokens, List.nil_append]
    split
    · split
      · exact ⟨_, _, rfl, .inl rfl⟩
      · exact ⟨_, _, rfl, .inl rfl⟩
    · exact ⟨_, _, rfl, .inl rfl⟩
  | .seq anchor [], _, _ => by
    rw [Outline.tokens]
    cases anchor <;> exact ⟨_, _, rfl, .inl rfl⟩
  | .seq anchor (o :: os), place, indenting => by
    rw [Outline.tokens]
    cases anchor with
    | some name => exact ⟨_, _, rfl, .inl rfl⟩
    | none =>
      rw [anchorTokens, List.nil_append]
      split
      · rename_i hloose
        simp only [isLoose, Bool.and_eq_true, Bool.or_eq_true, decide_eq_true_eq] at hloose
        rw [itemsTokens]
        exact ⟨_, _, rfl, .inr ⟨rfl, hloose.1⟩⟩
      · exact ⟨_, _, rfl, .inl rfl⟩
  | .map anchor tag [], _, _ => by
    rw [Outline.tokens]
    cases anchor with
    | some name => exact ⟨_, _, rfl, .inl rfl⟩
    | none => split <;> exact ⟨_, _, rfl, .inl rfl⟩
  | .map anchor tag (e :: es), _, _ => by
    rw [Outline.tokens]
    cases anchor with
    | some name => exact ⟨_, _, rfl, .inl rfl⟩
    | none => split <;> exact ⟨_, _, rfl, .inl rfl⟩

theorem endsKey_of_head {o : Outline} {at_ : Outline.Place} {indenting : Bool}
    (h : o.tokens at_ indenting = t :: ts) : endsKey t = false := by
  obtain ⟨t', ts', h', ht⟩ := head_tokens o at_ indenting
  cases h.symm.trans h'
  rcases ht with ht | ⟨rfl, -⟩
  · cases t <;> first | rfl | cases ht
  · rfl

theorem startsNode_of_head {o : Outline} {indenting : Bool} (h : o.tokens .item indenting = t :: ts) :
    startsNode t = true := by
  obtain ⟨t', ts', h', ht⟩ := head_tokens o .item indenting
  cases h.symm.trans h'
  rcases ht with ht | ⟨-, h | h⟩
  · exact ht
  · cases h
  · cases h

theorem endsItem_of_startsNode (h : startsNode t = true) : endsItem t = false := by
  cases t <;> first | rfl | cases h

theorem endsBlockItem_of_startsNode (h : startsNode t = true) : (t == .blockEntry || t == .blockEnd) = false := by
  cases t <;> first | rfl | cases h

/-- A node is read where one is wanted but may be missing. --/
theorem nodeUnless_of_tokens {ends : Token → Bool} {result : Except Fault (Tree × Reader)} {o : Outline}
    {at_ : Outline.Place} {indenting : Bool}
    (hends : ∀ {t ts}, o.tokens at_ indenting = t :: ts → ends t = false)
    (h : node Handles.standard fuel place ⟨o.tokens at_ indenting ++ rest, fault, known⟩ = result) :
    nodeUnless Handles.standard ends (fuel + 1) place ⟨o.tokens at_ indenting ++ rest, fault, known⟩ = result := by
  obtain ⟨t, ts, heq, -⟩ := head_tokens o at_ indenting
  rw [heq] at h ⊢
  rw [nodeUnless, List.cons_append, peek_cons, ok_bind, hends heq]
  simpa using h

mutual

/-- The tokens of a node are read as its tree. --/
theorem node_tokens : (o : Outline) → {simple : Bool} → IsLegible simple o → ∀ {fuel : Nat} {place : Outline.Place}
    {as : Reader.Place} {indenting : Bool} {fault : Option Fault} {known known' : List String} {rest : List Token},
    3 * (o.tokens place indenting).length ≤ fuel → o.scope known = some known' → Fits place as rest →
    node Handles.standard fuel as ⟨o.tokens place indenting ++ rest, fault, known⟩ =
      .ok (o.tree, ⟨rest, fault, known'⟩)
  | .alias name, _, _, fuel, place, as, indenting, fault, known, known', rest, hf, hscope, hfits => by
    obtain ⟨fuel, rfl⟩ : ∃ f, fuel = f + 1 := ⟨fuel - 1, by simp [Outline.tokens] at hf; omega⟩
    simp only [scope] at hscope
    split at hscope
    · rename_i hknown
      cases hscope
      simp only [node, Outline.tokens, List.cons_append, peek_cons, ok_bind, hknown, if_true]
      rfl
    · cases hscope
  | .scalar anchor tag text literal, _, ⟨_, htag, hclear⟩, fuel, place, as, indenting, fault, known, known', rest, hf,
      hscope, hfits => by
    rw [Outline.tokens, scalarTokens_eq] at hf ⊢
    obtain ⟨fuel, rfl⟩ : ∃ f, fuel = f + 1 := ⟨fuel - 1, by simp at hf; omega⟩
    rw [List.append_assoc, List.singleton_append, node_scalar _ _ _ hscope, scalarTag_eq htag hclear]
    rfl
  | .seq anchor [], _, _, fuel, place, as, indenting, fault, known, known', rest, hf, hscope, hfits => by
    obtain ⟨fuel, rfl⟩ : ∃ f, fuel = f + 2 := ⟨fuel - 2, by simp [Outline.tokens] at hf; omega⟩
    obtain ⟨_, hdef, hitems⟩ := Option.bind_eq_some_iff.mp hscope
    cases hitems
    have hread := @node_noItems fault known known' anchor rest fuel as none hdef
    rw [propertyTokens, Option.map_none, Option.toList_none, List.append_nil] at hread
    rw [Outline.tokens, List.append_assoc]
    exact hread
  | .seq anchor (o :: os), _, ⟨_, hos⟩, fuel, place, as, indenting, fault, known, known', rest, hf, hscope,
      hfits => by
    obtain ⟨known₁, hdef, hitems⟩ := Option.bind_eq_some_iff.mp hscope
    rw [Outline.tokens] at hf ⊢
    have hprops : propertyTokens anchor none = anchorTokens anchor := List.append_nil _
    by_cases hloose : isLoose place indenting anchor = true
    -- The items have no tokens around them; what comes next ends them.
    · rw [if_pos hloose] at hf ⊢
      have hlen : 1 ≤ (itemsTokens (o :: os)).length := by simp [itemsTokens]
      simp only [List.length_append] at hf
      obtain ⟨fuel, rfl⟩ : ∃ f, fuel = f + 1 := ⟨fuel - 1, by omega⟩
      obtain ⟨rfl, hrest⟩ : as = .entry ∧ GoesOn rest := by
        simp only [isLoose, Bool.and_eq_true, Bool.or_eq_true, decide_eq_true_eq] at hloose
        rcases hloose.1 with rfl | rfl
        · exact hfits
        · exact hfits
      have hread : looseItems Handles.standard fuel ⟨itemsTokens (o :: os) ++ rest, fault, known₁⟩ =
          .ok (trees (o :: os), ⟨rest, fault, known'⟩) := looseItems_tokens (o :: os) hos (by omega) (by omega) hitems hrest
      rw [List.append_assoc, ← hprops]
      rw [itemsTokens, List.cons_append, List.cons_append] at hread ⊢
      exact node_loose none hdef hread
    · rw [if_neg hloose] at hf ⊢
      simp only [List.length_append, List.length_cons] at hf
      obtain ⟨fuel, rfl⟩ : ∃ f, fuel = f + 1 := ⟨fuel - 1, by omega⟩
      have hread := node_items none hfits.ne_flow hdef
        (@blockItems_tokens (o :: os) hos fuel fault known₁ known' rest (by omega) hitems)
      rw [hprops] at hread
      simp only [List.append_assoc, List.cons_append, List.nil_append]
      exact hread
  | .map anchor tag [], _, ⟨_, htag, _⟩, fuel, place, as, indenting, fault, known, known', rest, hf, hscope,
      hfits => by
    obtain ⟨fuel, rfl⟩ : ∃ f, fuel = f + 2 := ⟨fuel - 2, by simp [Outline.tokens] at hf; omega⟩
    obtain ⟨_, hdef, hentries⟩ := Option.bind_eq_some_iff.mp hscope
    cases hentries
    rw [Outline.tokens, mapTokens_eq, List.append_assoc]
    have hread := @node_noEntries fault known known' anchor rest fuel as (shownTag tag) hdef
    rw [collectionTag_eq htag] at hread
    exact hread
  | .map anchor tag (e :: es), _, ⟨_, htag, hes⟩, fuel, place, as, indenting, fault, known, known', rest, hf, hscope,
      hfits => by
    obtain ⟨known₁, hdef, hentries⟩ := Option.bind_eq_some_iff.mp hscope
    rw [Outline.tokens, mapTokens_eq] at hf ⊢
    simp only [List.length_append, List.length_cons] at hf
    obtain ⟨fuel, rfl⟩ : ∃ f, fuel = f + 1 := ⟨fuel - 1, by omega⟩
    have hread := node_entries (shownTag tag) hfits.ne_flow hdef
      (@blockEntries_tokens (e :: es) hes fuel fault known₁ known' rest (by omega) hentries)
    rw [collectionTag_eq htag] at hread
    simp only [List.append_assoc, List.cons_append, List.nil_append]
    exact hread

/-- The tokens of items and the end of their sequence are read as their trees. --/
theorem blockItems_tokens : (os : List Outline) → AreLegible os → ∀ {fuel : Nat} {fault : Option Fault}
    {known known' : List String} {rest : List Token}, 3 * (itemsTokens os).length + 1 ≤ fuel →
    scopeItems known os = some known' →
    blockItems Handles.standard fuel ⟨itemsTokens os ++ .blockEnd :: rest, fault, known⟩ =
      .ok (trees os, ⟨rest, fault, known'⟩)
  | [], _, fuel, fault, known, known', rest, hf, hscope => by
    obtain ⟨fuel, rfl⟩ := Nat.exists_eq_add_one_of_ne_zero (Nat.ne_zero_of_lt hf)
    cases hscope
    rfl
  | o :: os, ⟨ho, hos⟩, fuel, fault, known, known', rest, hf, hscope => by
    simp only [itemsTokens, List.length_append, List.length_cons] at hf
    obtain ⟨fuel, rfl⟩ : ∃ f, fuel = f + 2 := ⟨fuel - 2, by omega⟩
    obtain ⟨known₁, hscope, hscopes⟩ := Option.bind_eq_some_iff.mp hscope
    have hnode : nodeUnless Handles.standard (fun t => t == .blockEntry || t == .blockEnd) (fuel + 1) .block
        ⟨o.tokens .item true ++ (itemsTokens os ++ .blockEnd :: rest), fault, known⟩ =
          .ok (o.tree, ⟨itemsTokens os ++ .blockEnd :: rest, fault, known₁⟩) :=
      nodeUnless_of_tokens (fun h => endsBlockItem_of_startsNode (startsNode_of_head h))
        (node_tokens o ho (by omega) hscope rfl)
    have hitems := @blockItems_tokens os hos (fuel + 1) fault known₁ known' rest (by omega) hscopes
    rw [blockItems]
    simp only [itemsTokens, List.cons_append, peek_cons, ok_bind, drop, List.tail_cons, List.append_assoc, hnode,
      hitems]
    rfl

/-- So are the tokens of items up to a token that starts none. --/
theorem looseItems_tokens : (os : List Outline) → AreLegible os → ∀ {fuel : Nat} {fault : Option Fault}
    {known known' : List String} {rest : List Token}, 0 < fuel → 3 * (itemsTokens os).length ≤ fuel + 1 →
    scopeItems known os = some known' → GoesOn rest →
    looseItems Handles.standard fuel ⟨itemsTokens os ++ rest, fault, known⟩ = .ok (trees os, ⟨rest, fault, known'⟩)
  | [], _, fuel, fault, known, known', rest, hpos, hf, hscope, ⟨t, ts, hrest, ht⟩ => by
    obtain ⟨fuel, rfl⟩ := Nat.exists_eq_add_one_of_ne_zero (Nat.ne_zero_of_lt hpos)
    cases hscope
    subst hrest
    rw [looseItems, itemsTokens, List.nil_append, peek_cons, ok_bind]
    split
    · exact absurd rfl ht
    · rfl
  | o :: os, ⟨ho, hos⟩, fuel, fault, known, known', rest, hpos, hf, hscope, hrest => by
    simp only [itemsTokens, List.length_append, List.length_cons] at hf
    obtain ⟨fuel, rfl⟩ : ∃ f, fuel = f + 2 := ⟨fuel - 2, by omega⟩
    obtain ⟨known₁, hscope, hscopes⟩ := Option.bind_eq_some_iff.mp hscope
    have hnode : nodeUnless Handles.standard endsItem (fuel + 1) .block
        ⟨o.tokens .item true ++ (itemsTokens os ++ rest), fault, known⟩ =
          .ok (o.tree, ⟨itemsTokens os ++ rest, fault, known₁⟩) :=
      nodeUnless_of_tokens (fun h => endsItem_of_startsNode (startsNode_of_head h))
        (node_tokens o ho (by omega) hscope rfl)
    have hitems := @looseItems_tokens os hos (fuel + 1) fault known₁ known' rest (by omega) (by omega) hscopes hrest
    rw [looseItems]
    simp only [itemsTokens, List.cons_append, peek_cons, ok_bind, drop, List.tail_cons, List.append_assoc, hnode,
      hitems]
    rfl

/-- The tokens of entries and the end of their mapping are read as their trees. --/
theorem blockEntries_tokens : (es : List (Outline × Outline)) → EntriesAreLegible es → ∀ {fuel : Nat}
    {fault : Option Fault} {known known' : List String} {rest : List Token},
    3 * (entriesTokens es).length + 1 ≤ fuel → scopeEntries known es = some known' →
    blockEntries Handles.standard fuel ⟨entriesTokens es ++ .blockEnd :: rest, fault, known⟩ =
      .ok (treeEntries es, ⟨rest, fault, known'⟩)
  | [], _, fuel, fault, known, known', rest, hf, hscope => by
    obtain ⟨fuel, rfl⟩ := Nat.exists_eq_add_one_of_ne_zero (Nat.ne_zero_of_lt hf)
    cases hscope
    rfl
  | (k, v) :: es, ⟨_, hk, hv, hes⟩, fuel, fault, known, known', rest, hf, hscope => by
    simp only [entriesTokens, List.length_append, List.length_cons] at hf
    obtain ⟨fuel, rfl⟩ : ∃ f, fuel = f + 3 := ⟨fuel - 3, by omega⟩
    obtain ⟨known₁, hscope₁, hscope₂⟩ := Option.bind_eq_some_iff.mp hscope
    obtain ⟨known₂, hscope₂, hscopes⟩ := Option.bind_eq_some_iff.mp hscope₂
    have hkey : ∀ rest, GoesOn rest → nodeUnless Handles.standard endsKey (fuel + 2) .entry
        ⟨k.tokens (if isSimpleKey k then .simpleKey else .entry) true ++ rest, fault, known⟩ =
          .ok (k.tree, ⟨rest, fault, known₁⟩) := fun rest hrest =>
      nodeUnless_of_tokens endsKey_of_head (node_tokens k hk (by omega) hscope₁ (by split <;> exact ⟨rfl, hrest⟩))
    have hvalue : ∀ rest, GoesOn rest → nodeUnless Handles.standard endsKey (fuel + 1) .entry
        ⟨v.tokens .entry (!isSimpleKey k) ++ rest, fault, known₁⟩ = .ok (v.tree, ⟨rest, fault, known₂⟩) :=
      fun rest hrest => nodeUnless_of_tokens endsKey_of_head (node_tokens v hv (by omega) hscope₂ ⟨rfl, hrest⟩)
    have hentries := @blockEntries_tokens es hes (fuel + 2) fault known₂ known' rest (by omega) hscopes
    rw [blockEntries]
    simp only [entriesTokens, List.cons_append, peek_cons, ok_bind, drop, List.tail_cons, List.append_assoc]
    rw [hkey _ (show GoesOn (.value :: _) from ⟨_, _, rfl, by decide⟩), ok_bind]
    simp only [blockValue, peek_cons, ok_bind, drop, List.tail_cons, hvalue _ (goesOn_entries es rest), hentries]
    rfl

end

theorem startsDocument_of_startsNode (h : startsNode t = true) :
    (t == .documentStart || (endsContent t && t != .documentEnd)) = false := by
  cases t <;> first | rfl | cases h

end Reader

open Reader in
/-- The tokens of an outline, and the end of its text, are read as its tree. --/
theorem Outline.ofTokens_tokens {o : Outline} {known : List String} {tail : List Token} (h : IsLegible false o)
    (hscope : o.scope [] = some known) (htail : tail = [] ∨ tail = [.documentEnd]) :
    Tree.ofTokens (o.tokens .root true ++ tail ++ [.streamEnd]) none = .ok (some o.tree) := by
  obtain ⟨t, ts, heq, ht⟩ := head_tokens o .root true
  have hstarts : startsNode t = true := ht.resolve_right nofun
  have hnode := @node_tokens o false h (3 * (o.tokens .root true ++ (tail ++ [Token.streamEnd])).length + 3) .root .block true
    none [] known (tail ++ [Token.streamEnd]) (by rw [List.length_append]; omega) hscope rfl
  rw [List.append_assoc, Tree.ofTokens, document]
  rw [heq] at hnode ⊢
  simp only [List.cons_append, peek_cons, ok_bind] at hnode ⊢
  split
  · cases hstarts
  · simp only [startsDocument_of_startsNode hstarts, Bool.false_eq_true, if_false, hnode, ok_bind]
    rcases htail with rfl | rfl <;> rfl

end Retag.Markup

import Retag.Proofs.Markup.Page
import Retag.Proofs.Markup.Token.Piece
import Retag.Markup.Layout

/-! Outlines laid out on a page, and the tokens that the page is read as. What is written for a node depends on the
    page before it only by its column and by whether nothing but marks stands on the line. -/

namespace Retag.Markup

open Page Scanner Text

variable {p q r : Page} {s : Scanner} {c : Cursor} {ts out out' : List Token} {cols cols' : List Nat}
  {k : Option Candidate} {a : Bool} {w v bs cs text : List Char} {n m : Nat} {x : Char}

/-! ### What is read -/

namespace Outline

/-- Whether a sequence is not indented further than the mapping around it. --/
def isLoose (place : Place) (indenting : Bool) (anchor : Option String) : Bool :=
  (place = .entry || place = .simpleKey) && (anchor.isSome || !indenting)

/-- The tokens of an anchor. --/
def anchorTokens : Option String → List Token
  | none => []
  | some name => [.anchor name]

/-- The token of a tag in its short form. --/
def tagToken (t : Tag) : Token :=
  .tag (some "!!") (String.ofList ((tagText t).drop 2))

/-- The tokens of a whole text. --/
def wholeTokens (simple : Bool) (tag : Tag) (cs : List Char) (literal : Bool) : List Token :=
  let style := Style.choose tag cs literal simple
  (if showsTag style tag cs then [] else [tagToken tag]) ++ [.scalar (String.ofList cs) (style = .plain)]

/-- The tokens of a scalar. Nothing but a text is torn, and its tag is not to be seen. --/
def scalarTokens (simple : Bool) (tag : Tag) (text : Wobbly) (literal : Bool) : List Token :=
  match text with
  | .whole s => wholeTokens simple tag s.toList literal
  | .torn t => [.scalar (.torn t) false]

mutual

/-- The tokens of a node, given whether nothing but marks stands before it on the line. --/
def tokens (place : Place) (indenting : Bool) : Outline → List Token
  | .alias name => [.alias name]
  | .scalar anchor tag text literal =>
    anchorTokens anchor ++ scalarTokens (place = .simpleKey) tag text literal
  | .seq anchor items => anchorTokens anchor ++ match items with
    | [] => [.flowSequenceStart, .flowSequenceEnd]
    | o :: rest =>
      if isLoose place indenting anchor then itemsTokens (o :: rest)
      else .blockSequenceStart :: itemsTokens (o :: rest) ++ [.blockEnd]
  | .map anchor tag entries =>
    anchorTokens anchor ++ (if tag = .map then [] else [tagToken tag]) ++ match entries with
    | [] => [.flowMappingStart, .flowMappingEnd]
    | e :: rest => .blockMappingStart :: entriesTokens (e :: rest) ++ [.blockEnd]

/-- The tokens of the items of a sequence. --/
def itemsTokens : List Outline → List Token
  | [] => []
  | o :: rest => .blockEntry :: tokens .item true o ++ itemsTokens rest

/-- The tokens of the entries of a mapping. --/
def entriesTokens : List (Outline × Outline) → List Token
  | [] => []
  | (k, v) :: rest =>
    .key :: tokens (if isSimpleKey k then .simpleKey else .entry) true k ++
      .value :: tokens .entry (!isSimpleKey k) v ++ entriesTokens rest

end

/-! ### What can be read -/

/-- Whether a whole text can be read again in the style that is chosen for it. --/
def IsClear (simple : Bool) (tag : Tag) (cs : List Char) (literal : Bool) : Prop :=
  match Style.choose tag cs literal simple with
  | .plain => cs ≠ []
  | .single => ∀ x ∈ cs, x ≠ '\x85'
  | .double => True
  | .literal => AreLines cs

/-- Whether a text can be read again. --/
def IsClearText (simple : Bool) (tag : Tag) (text : Wobbly) (literal : Bool) : Prop :=
  match text with
  | .whole s => IsClear simple tag s.toList literal
  | .torn _ => tag = .str

/-- Whether an anchor can be read again. --/
def IsAnchor (anchor : Option String) : Prop :=
  ∀ name, anchor = some name → IsName name.toList

/-- Whether a node has no parts. --/
def isLeaf : Outline → Bool
  | .alias _ | .scalar .. => true
  | _ => false

mutual

/-- Whether a node can be read again. --/
def IsLegible (simple : Bool) : Outline → Prop
  | .alias name => IsName name.toList
  | .scalar anchor tag text literal =>
    IsAnchor anchor ∧ (∀ t, tag ≠ .other t) ∧ IsClearText simple tag text literal
  | .seq anchor items => IsAnchor anchor ∧ AreLegible items
  | .map anchor tag entries => IsAnchor anchor ∧ (∀ t, tag ≠ .other t) ∧ EntriesAreLegible entries

/-- Whether items can be read again. --/
def AreLegible : List Outline → Prop
  | [] => True
  | o :: rest => IsLegible false o ∧ AreLegible rest

/-- Whether entries can be read again; no key has parts. --/
def EntriesAreLegible : List (Outline × Outline) → Prop
  | [] => True
  | (k, v) :: rest => isLeaf k ∧ IsLegible (isSimpleKey k) k ∧ IsLegible false v ∧ EntriesAreLegible rest

end

/-- The number of characters that are written for a simple key between double quotes. --/
def quotedLength (anchor : Option String) (tag : Tag) (points : List Point) : Nat :=
  anchor.elim 0 (·.length + 2) + (if tag = .str then 0 else (tagText tag).length + 1) + ((doubled points).length + 2)

/-- Whether a text is written between double quotes. --/
def IsQuoted (simple : Bool) (tag : Tag) (text : Wobbly) (literal : Bool) : Prop :=
  match text with
  | .whole s => Style.choose tag s.toList literal simple = .double
  | .torn _ => True

instance (simple : Bool) (tag : Tag) (text : Wobbly) (literal : Bool) : Decidable (IsQuoted simple tag text literal) :=
  match text with
  | .whole s => inferInstanceAs (Decidable (Style.choose tag s.toList literal simple = .double))
  | .torn _ => isTrue trivial

/-- Whether a text can be read again where it stands: between double quotes it is not too long for a simple key, and
    elsewhere it is not folded twice. --/
def FitsText (indent : Option Nat) (place : Place) (anchor : Option String) (tag : Tag) (text : Wobbly)
    (literal : Bool) : Prop :=
  IsQuoted (place = .simpleKey) tag text literal →
    if place = .simpleKey then quotedLength anchor tag text.points ≤ 1024
    else deeper indent 2 < width ∨ foldsTwice text.points = false

mutual

/-- Whether all texts of a node can be read again where they stand, given the column of what is around it and whether
    nothing but marks stands before it on the line. --/
def Fits (indent : Option Nat) (place : Place) (indenting : Bool) : Outline → Prop
  | .alias _ => True
  | .scalar anchor tag text literal => FitsText indent place anchor tag text literal
  | .seq anchor items => ItemsFit (if isLoose place indenting anchor then indent.getD 0 else deeper indent 0) items
  | .map _ _ entries => EntriesFit (deeper indent 0) entries

/-- Whether the texts of items can be read again. --/
def ItemsFit (n : Nat) : List Outline → Prop
  | [] => True
  | o :: rest => Fits (some n) .item true o ∧ ItemsFit n rest

/-- Whether the texts of entries can be read again. --/
def EntriesFit (n : Nat) : List (Outline × Outline) → Prop
  | [] => True
  | (k, v) :: rest => Fits (some n) (if isSimpleKey k then .simpleKey else .entry) true k ∧
    Fits (some n) .entry (!isSimpleKey k) v ∧ EntriesFit n rest

end

end Outline

/-! ### Nodes on a page -/

/-- A text was written, and going to any column starts a new line. --/
def Page.Closes (p q : Page) (cs : List Char) : Prop :=
  ∀ m, Wrote p (q.indent m) (cs ++ '\n' :: List.replicate m ' ') m true true

theorem Page.Wrote.closes {column : Nat} (h : Wrote p q cs column a false) : Closes p q cs :=
  fun _ => h.trans (wrote_indent_of_text h.indenting)

/-- After a text that ends its line the next one has been started already. --/
theorem Page.Wrote.closes_line (h : Wrote p q (cs ++ ['\n']) 0 true true) : Closes p q cs := by
  intro m
  have hm : Wrote q (q.indent m) (List.replicate m ' ') m true true := by
    cases m with
    | zero =>
      have hindent : q.indent 0 = q := by
        unfold Page.indent
        simp [h.column, h.afterBlank, h.indenting]
      rw [hindent]
      exact ⟨rfl, h.column, h.afterBlank, h.indenting⟩
    | succ m =>
      have := wrote_indent_of_marks (n := m + 1) h.indenting (by rw [h.column]; exact Nat.succ_pos m)
      rwa [h.column, Nat.sub_zero] at this
  simpa using h.trans hm

theorem Page.Closes.prepend {column : Nat} {b : Bool} (h : Wrote p q cs column a b) (h' : Closes q r bs) :
    Closes p r (cs ++ bs) := by
  intro m
  rw [List.append_assoc]
  exact h.trans (h' m)

theorem Page.lead_eq (p : Page) : p.lead = List.replicate p.lead.length ' ' := by
  unfold lead
  split <;> rfl

/-- From one page to another a node was written that is read as tokens. Of the collections that are open then, those
    indented more than the next line end with it. --/
structure Writes (p q : Page) (cols cols' : List Nat) (body : List Char) (out : List Token) : Prop where
  closes : Closes p q body
  head : p.afterBlank = false → ∃ x rest, body = x :: rest ∧ endsProperty x = true
  reads : ∀ {s c ts k m text}, Waits s c ts cols k p.indenting (body ++ '\n' :: (List.replicate m ' ' ++ text)) →
    c.column = p.column → Follows cols m text → Harmless c k →
    ∃ c', c'.column = m ∧ Stands s c' (ts ++ out ++ ends cols' m) (cols'.dropWhile (m < ·)) none true text

theorem head_lead (h : p.afterBlank = false) : ∃ x rest, p.lead ++ w = x :: rest ∧ endsProperty x = true :=
  ⟨' ', w, by simp [lead, h], by decide⟩

/-- Behind the lead of a page the next piece starts, beyond the columns of the open collections. --/
theorem Scanner.Waits.stands_lead {bs : List Char} {a : Bool} (hs : Waits s c ts cols k a (p.lead ++ bs)) (hb : Starts bs)
    (hcol : c.column = p.column) (hcols : Deeper cols p.column) (hk : Harmless c k) :
    Stands s (c.advance p.lead.length) ts cols k a bs ∧ (c.advance p.lead.length).column = p.column + p.lead.length ∧
      Deeper cols (p.column + p.lead.length) := by
  rw [lead_eq] at hs
  have hdeeper : Deeper cols (p.column + p.lead.length) := fun i hi => Nat.lt_add_right _ (hcols i hi)
  exact ⟨hs.stands hb (hcol ▸ hdeeper.le) (hk.spared _), by rw [Cursor.advance_spaces hs.rest, hcol], hdeeper⟩

/-- A piece that is read with its line end is a node. --/
theorem Scanner.ReadsLine.writes (h : ReadsLine cols w out) (hp : Closes p q (p.lead ++ w)) (hcols : Deeper cols p.column) :
    Writes p q cols cols (p.lead ++ w) out := by
  refine ⟨hp, head_lead, fun {s c ts k m text} hs hcol hfollows hk => ?_⟩
  rw [List.append_assoc] at hs
  obtain ⟨hstands, hcol', hdeeper⟩ := hs.stands_lead (h.starts.append h.ne_nil _) hcol hcols hk
  exact h.reads hstands (by rwa [hcol']) hfollows (hk.advance _)

/-- A mark in front of a node is read before it. --/
theorem Writes.mark (hw : Closed endsProperty w out) (hi : ∀ x ∈ w, isInline x = true) (hcols : Deeper cols p.column)
    (h : Writes (p.mark w) q cols cols' bs out') : Writes p q cols cols' (p.lead ++ w ++ bs) (out ++ out') := by
  have hmark := wrote_mark p w
  obtain ⟨x, rest, rfl, hx⟩ := h.head hmark.afterBlank
  refine ⟨h.closes.prepend hmark, fun ha => ?_, fun {s c ts k m text} hs hcol hfollows hk => ?_⟩
  · rw [List.append_assoc]
    exact head_lead ha
  · rw [List.append_assoc, List.append_assoc, List.cons_append] at hs
    obtain ⟨hstands, hcol', hdeeper⟩ := hs.stands_lead (hw.starts.append hw.ne_nil _) hcol hcols hk
    have hk' : Harmless (c.advance p.lead.length) (noted p.indenting k (c.advance p.lead.length) ts cols) :=
      Deeper.harmless_noted (by rwa [hcol']) (hk.advance _) ts _
    have hwaits := hw.reads hstands hx (hk'.spared _)
    rw [← hmark.indenting] at hwaits
    have hcol'' : ((c.advance p.lead.length).advance w.length).column = (p.mark w).column := by
      rw [Cursor.advance_inline hstands.rest hi, hmark.column]
      simp only [hcol', List.length_append]
      omega
    obtain ⟨c', hm, hc'⟩ := h.reads hwaits hcol'' hfollows (hk'.advance _)
    rw [List.append_assoc ts] at hc'
    exact ⟨c', hm, hc'⟩

/-! ### Scalars and marks -/

theorem Page.wrote_plain (n : Nat) (split root : Bool) (h : Words cs) (p : Page) : ∃ body column, Folds n cs body ∧
    Wrote p (p.plain n split root cs) (p.lead ++ body) column false false ∧
      (split = false → body = cs ∧ column = p.column + (p.lead ++ cs).length) := by
  have hne : cs.isEmpty = false := by
    cases cs with
    | nil =>
      obtain ⟨x, hx, -⟩ := h.head?
      cases hx
    | cons x cs => rfl
  have hstart : Wrote p (Page.inText (if p.afterBlank then { p with openEnded := p.openEnded || root }
      else Page.write { p with openEnded := p.openEnded || root } [' '])) p.lead (p.column + p.lead.length) false
      false := by
    unfold lead
    split <;> exact ⟨rfl, rfl, rfl, rfl⟩
  obtain ⟨body, column, hfolds, hwrote, hplain⟩ :=
    @wrote_plainRuns n cs h split cs.length _ (Nat.le_refl _) hstart.indenting hstart.afterBlank
  refine ⟨body, column, hfolds, ?_, fun hsplit => ?_⟩
  · have := hstart.trans hwrote
    simpa only [plain, hne, Bool.false_eq_true, if_false] using this
  · obtain ⟨rfl, hcol⟩ := hplain hsplit
    refine ⟨rfl, ?_⟩
    rw [hcol, hstart.column, List.length_append, Nat.add_assoc]

theorem Style.choose_eq_plain {tag : Tag} {literal simple : Bool} (h : choose tag cs literal simple = .plain) :
    allowsPlain cs = true := by
  simp only [choose] at h
  split at h
  · split at h <;> cases h
  · split at h
    · rename_i hplain
      simp only [Bool.and_eq_true] at hplain
      exact hplain.1.2
    · split at h <;> cases h

theorem Style.choose_eq_literal {tag : Tag} {literal simple : Bool} (h : choose tag cs literal simple = .literal) :
    simple = false ∧ allowsLiteral cs = true := by
  simp only [choose] at h
  split at h
  · split at h
    · rename_i hliteral
      simpa using hliteral
    · cases h
  · split at h
    · cases h
    · split at h <;> cases h

theorem Style.choose_eq_single {tag : Tag} {literal simple : Bool} (h : choose tag cs literal simple = .single) :
    allowsSingle cs = true ∧ (simple = true → isMultiline cs = false) := by
  simp only [choose] at h
  split at h
  · split at h <;> cases h
  · split at h
    · cases h
    · split at h
      · rename_i hsingle
        simp only [Bool.and_eq_true, Bool.not_eq_true', Bool.and_eq_false_iff] at hsingle
        refine ⟨hsingle.1, fun hs => ?_⟩
        rcases hsingle.2 with h | h
        · rw [hs] at h
          cases h
        · exact h
      · cases h

namespace Outline

/-- A text that is not laid out in lines can be read again, unless it stands between single quotes and has a character
    that single quotes do not keep. --/
theorem isClear_of_not_literal {tag : Tag} (simple : Bool) (hne : cs = [] → tag = .str)
    (hkept : Style.allowsSingle cs = true → ∀ x ∈ cs, x ≠ '\x85') : IsClear simple tag cs false := by
  unfold IsClear
  cases hstyle : Style.choose tag cs false simple
  case plain =>
    rintro rfl
    rw [hne rfl] at hstyle
    revert hstyle
    cases simple <;> decide
  case single => exact hkept (Style.choose_eq_single hstyle).1
  case double => trivial
  case literal =>
    simp only [Style.choose, Bool.false_eq_true, if_false] at hstyle
    split at hstyle
    · cases hstyle
    · split at hstyle <;> cases hstyle

/-- The page behind a text in a style. --/
def written (p : Page) (n : Nat) (split root : Bool) (style : Style) (cs : List Char) : Page :=
  match style with
  | .plain => p.plain n split root cs
  | .single => p.single n split cs
  | .double => p.double n split (cs.map .char)
  | .literal => p.literal n cs

variable {tag : Tag} {literal : Bool} {indent : Option Nat} {place : Place}

theorem writeWhole_eq : writeWhole p indent place tag cs literal =
    written (if showsTag (Style.choose tag cs literal (place = .simpleKey)) tag cs then p else p.mark (tagText tag))
      (deeper indent 2) (!decide (place = .simpleKey)) (place = .root) (Style.choose tag cs literal (place = .simpleKey))
      cs := rfl

theorem deeper_pos (indent : Option Nat) : 0 < deeper indent 2 := by
  cases indent <;> exact Nat.succ_pos _

/-- A text is a node that is read as the text. --/
theorem writes_text (split root : Bool) (hclear : IsClear false tag cs literal)
    (hfits : Style.choose tag cs literal false = .double → n < width ∨ foldsTwice (cs.map .char) = false)
    (hn : Deeper cols n) (hpos : 0 < n) (hcols : Deeper cols p.column) :
    ∃ body, Writes p (written p n split root (Style.choose tag cs literal false) cs) cols cols body
      [.scalar (String.ofList cs) (Style.choose tag cs literal false = .plain)] := by
  unfold IsClear at hclear
  cases hstyle : Style.choose tag cs literal false <;> simp only [hstyle] at hclear
  case plain =>
    have hplain := Style.choose_eq_plain hstyle
    obtain ⟨body, column, hfolds, hwrote, -⟩ := wrote_plain n split root (words_of_allowsPlain hplain hclear) p
    exact ⟨_, (readsLine_plain hplain hfolds hn hpos).writes hwrote.closes hcols⟩
  case single =>
    have hok := singlesOk_of_allowsSingle (Style.choose_eq_single hstyle).1 hclear
    obtain ⟨body, column, hsingles, hwrote, -⟩ := wrote_single hpos split p hok
    exact ⟨_, ((closed_single hsingles hpos).property.readsLine cols).writes hwrote.closes hcols⟩
  case double =>
    obtain ⟨body, column, hdoubles, hwrote, -⟩ := wrote_double split p fun _ => hfits hstyle
    have hclosed := closed_double hdoubles hpos
    rw [Wobbly.ofPoints_chars] at hclosed
    exact ⟨_, (hclosed.property.readsLine cols).writes hwrote.closes hcols⟩
  case literal =>
    obtain ⟨bs, hlines, hwrote⟩ := wrote_literal hclear hpos p
    exact ⟨_, (readsLine_literal hlines hn hpos).writes hwrote.closes_line hcols⟩

/-- The short form of a tag is two marks and a word. --/
theorem tagText_eq (htag : ∀ t, tag ≠ .other t) : ∃ w, tagText tag = '!' :: '!' :: w ∧ w ≠ [] ∧
    (∀ x ∈ w, x.isAlpha = true) ∧ w.length ≤ 9 := by
  cases tag
  case other t => exact absurd rfl (htag t)
  all_goals exact ⟨_, rfl, by decide, List.all_eq_true.mp (by decide), by decide⟩

theorem closed_tagText (htag : ∀ t, tag ≠ .other t) :
    Closed endsProperty (tagText tag) [tagToken tag] ∧ ∀ x ∈ tagText tag, isInline x = true := by
  obtain ⟨w, hw, hne, hletters, -⟩ := tagText_eq htag
  have hdrop : (tagText tag).drop 2 = w := by simp [hw]
  rw [tagToken, hdrop, hw]
  refine ⟨closed_tag hletters hne, fun x hx => ?_⟩
  simp only [List.mem_cons] at hx
  rcases hx with rfl | rfl | hx
  · decide
  · decide
  · exact IsName.inline (w := w) ⟨hne, fun y hy => by simp [isNameChar, Char.isAlphanum, hletters y hy]⟩ x hx

theorem deeper_mark (w : List Char) (h : Deeper cols p.column) : Deeper cols (p.mark w).column := by
  intro i hi
  have := h i hi
  rw [(wrote_mark p w).column]
  omega

theorem writes_whole (hplace : place ≠ .simpleKey) (htag : ∀ t, tag ≠ .other t)
    (hclear : IsClear false tag cs literal)
    (hfits : Style.choose tag cs literal false = .double → deeper indent 2 < width ∨ foldsTwice (cs.map .char) = false)
    (hn : Deeper cols (deeper indent 2)) (hcols : Deeper cols p.column) :
    ∃ body, Writes p (writeWhole p indent place tag cs literal) cols cols body (wholeTokens false tag cs literal) := by
  have hsimple : decide (place = .simpleKey) = false := by simpa using hplace
  rw [writeWhole_eq, hsimple, wholeTokens]
  by_cases hshown : showsTag (Style.choose tag cs literal false) tag cs = true
  · simp only [hshown, if_true]
    exact writes_text _ _ hclear hfits hn (deeper_pos indent) hcols
  · simp only [hshown]
    obtain ⟨hclosed, hinline⟩ := closed_tagText htag
    obtain ⟨body, hbody⟩ := writes_text (p := p.mark (tagText tag)) _ _ hclear hfits hn (deeper_pos indent)
      (deeper_mark _ hcols)
    exact ⟨_, hbody.mark hclosed hinline hcols⟩

/-- A text that may be torn is a node that is read as the text. --/
theorem writes_scalar {text : Wobbly} (hplace : place ≠ .simpleKey) (htag : ∀ t, tag ≠ .other t)
    (hclear : IsClearText false tag text literal)
    (hfits : IsQuoted false tag text literal → deeper indent 2 < width ∨ foldsTwice text.points = false)
    (hn : Deeper cols (deeper indent 2)) (hcols : Deeper cols p.column) :
    ∃ body, Writes p (writeScalar p indent place tag text literal) cols cols body
      (scalarTokens false tag text literal) := by
  cases text with
  | whole s => exact writes_whole hplace htag hclear hfits hn hcols
  | torn t =>
    obtain rfl : tag = .str := hclear
    obtain ⟨body, column, hdoubles, hwrote, -⟩ := wrote_double (decide (place ≠ .simpleKey)) p fun _ => hfits trivial
    have hclosed := closed_double hdoubles (deeper_pos indent)
    rw [Wobbly.ofPoints_points] at hclosed
    exact ⟨_, (hclosed.property.readsLine cols).writes hwrote.closes hcols⟩

end Outline

/-! ### Simple keys on a page -/

/-- From one page to another a piece was written on the line that is read as a simple key. --/
structure WritesKey (p q : Page) (w : List Char) (out : List Token) : Prop where
  wrote : Wrote p q (p.lead ++ w) (p.column + (p.lead ++ w).length) false false
  inline : ∀ x ∈ w, isInline x = true
  reads : ReadsKey w out

/-- A mark in front of a key is read before it. --/
theorem WritesKey.mark (hw : Closed endsProperty w out) (hi : ∀ x ∈ w, isInline x = true)
    (h : WritesKey (p.mark w) q v out') : WritesKey p q (w ++ ' ' :: v) (out ++ out') := by
  have hmark := wrote_mark p w
  have hlead : (p.mark w).lead = [' '] := by simp [lead, hmark.afterBlank]
  refine ⟨?_, fun x hx => ?_, hw.before_key hi h.reads⟩
  · have hwrote := hmark.trans h.wrote
    rw [hlead, hmark.column] at hwrote
    simpa [Nat.add_assoc] using hwrote
  · simp only [List.mem_append, List.mem_cons] at hx
    rcases hx with hx | rfl | hx
    · exact hi x hx
    · decide
    · exact h.inline x hx

namespace Outline

variable {tag : Tag} {literal : Bool} {indent : Option Nat} {place : Place}

/-- How long a text is at most that is written as a simple key. --/
def keyLength (tag : Tag) (cs : List Char) (literal : Bool) : Nat :=
  if Style.choose tag cs literal true = .double then (doubled (cs.map .char)).length + 2 else 2 * cs.length + 2

/-- A text between double quotes on one line is a simple key. --/
theorem writesKey_double (p : Page) (hpos : 0 < n) (points : List Point) :
    WritesKey p (p.double n false points) ('"' :: (doubled points ++ ['"'])) [.scalar (.ofPoints points) false] := by
  obtain ⟨body, column, hdoubles, hwrote, heq⟩ := @wrote_double n points false p nofun
  obtain ⟨rfl, rfl⟩ := heq rfl
  have hwrote' : Wrote p (p.double n false points) (p.lead ++ '"' :: (doubled points ++ ['"']))
      (p.column + (p.lead ++ '"' :: (doubled points ++ ['"'])).length) false false := by
    simpa [Nat.add_assoc] using hwrote
  refine ⟨hwrote', fun x hx => ?_, (closed_double hdoubles hpos).readsKey⟩
  simp only [List.mem_cons, List.mem_append, List.not_mem_nil, or_false] at hx
  rcases hx with rfl | hx | rfl
  · decide
  · exact isInline_of_mem_doubled hx
  · decide

/-- A text is a simple key that is read as the text. --/
theorem writesKey_text (root : Bool) (hclear : IsClear true tag cs literal) (hpos : 0 < n) :
    ∃ w, w.length ≤ keyLength tag cs literal ∧ WritesKey p (written p n false root (Style.choose tag cs literal true) cs) w
      [.scalar (String.ofList cs) (Style.choose tag cs literal true = .plain)] := by
  unfold IsClear at hclear
  unfold keyLength
  cases hstyle : Style.choose tag cs literal true <;> simp only [hstyle] at hclear
  case plain =>
    have hplain := Style.choose_eq_plain hstyle
    have hwords := words_of_allowsPlain hplain hclear
    obtain ⟨body, column, hfolds, hwrote, heq⟩ := wrote_plain n false root hwords p
    obtain ⟨rfl, rfl⟩ := heq rfl
    exact ⟨body, by rw [if_neg (by decide)]; omega, hwrote, hwords.inline, readsKey_plain hplain hclear⟩
  case single =>
    obtain ⟨hsingle, hone⟩ := Style.choose_eq_single hstyle
    obtain ⟨body, column, hsingles, hwrote, heq⟩ := wrote_single hpos false p (singlesOk_of_allowsSingle hsingle hclear)
    obtain ⟨rfl, hinline, hlen⟩ := heq rfl (by simpa [Style.isMultiline] using hone rfl)
    have hwrote' : Wrote p (p.single n false cs) (p.lead ++ '\'' :: (body ++ ['\'']))
        (p.column + (p.lead ++ '\'' :: (body ++ ['\''])).length) false false := by
      simpa [Nat.add_assoc] using hwrote
    refine ⟨'\'' :: (body ++ ['\'']), by simpa using hlen, hwrote', fun x hx => ?_,
      (closed_single hsingles hpos).readsKey⟩
    · simp only [List.mem_cons, List.mem_append, List.not_mem_nil, or_false] at hx
      rcases hx with rfl | hx | rfl
      · decide
      · exact hinline x hx
      · decide
  case double =>
    have hkey := writesKey_double p hpos (cs.map .char)
    rw [Wobbly.ofPoints_chars] at hkey
    exact ⟨_, by simp, hkey⟩
  case literal => cases (Style.choose_eq_literal hstyle).1

theorem writesKey_whole (p : Page) (indent : Option Nat) (htag : ∀ t, tag ≠ .other t)
    (hclear : IsClear true tag cs literal) :
    ∃ w, w.length ≤ (if showsTag (Style.choose tag cs literal true) tag cs then 0 else (tagText tag).length + 1) +
        keyLength tag cs literal ∧
      WritesKey p (writeWhole p indent .simpleKey tag cs literal) w (wholeTokens true tag cs literal) := by
  rw [writeWhole_eq, wholeTokens, decide_eq_true rfl]
  by_cases hshown : showsTag (Style.choose tag cs literal true) tag cs = true
  · simp only [hshown, if_true]
    obtain ⟨w, hlen, hw⟩ := writesKey_text _ hclear (deeper_pos indent)
    exact ⟨w, by omega, hw⟩
  · simp only [hshown]
    obtain ⟨hclosed, hinline⟩ := closed_tagText htag
    obtain ⟨w, hlen, hw⟩ := writesKey_text (p := p.mark (tagText tag)) _ hclear (deeper_pos indent)
    exact ⟨_, by simp only [List.length_append, List.length_cons, Bool.false_eq_true, if_false]; omega,
      hw.mark hclosed hinline⟩

theorem closed_anchorMark {name : String} (h : IsName name.toList) :
    Closed endsProperty ('&' :: name.toList) (anchorTokens (some name)) ∧
      ∀ x ∈ '&' :: name.toList, isInline x = true := by
  refine ⟨by simpa [anchorTokens] using (closed_anchor h).property, fun x hx => ?_⟩
  rcases List.mem_cons.mp hx with rfl | hx
  · decide
  · exact h.inline x hx

theorem writesKey_alias {name : String} (h : IsName name.toList) :
    WritesKey p (p.mark ('*' :: name.toList)) ('*' :: name.toList) [.alias name] := by
  refine ⟨wrote_mark p _, fun x hx => ?_, by simpa using (closed_alias h).readsKey⟩
  rcases List.mem_cons.mp hx with rfl | hx
  · decide
  · exact h.inline x hx

/-- A text that fits is not too long for a simple key. --/
theorem keyLength_le {anchor : Option String}
    (hfits : Style.choose tag cs literal true = .double → quotedLength anchor tag (cs.map .char) ≤ 1024)
    (hlen : anchorLength anchor + (tagText tag).length + cs.length < 128) :
    anchor.elim 0 (·.length + 2) + ((if showsTag (Style.choose tag cs literal true) tag cs then 0
      else (tagText tag).length + 1) + keyLength tag cs literal) ≤ 1024 := by
  by_cases hdouble : Style.choose tag cs literal true = .double
  · have hquoted := hfits hdouble
    have hshown : showsTag .double tag cs = decide (tag = .str) := by
      rw [showsTag, if_neg (by decide), beq_eq_decide]
    simpa [keyLength, quotedLength, hdouble, hshown, Nat.add_assoc] using hquoted
  · have hmark : anchor.elim 0 (·.length + 2) ≤ anchorLength anchor + 2 := by
      cases anchor with
      | none => exact Nat.zero_le _
      | some name => exact Nat.le_refl _
    have htext : keyLength tag cs literal = 2 * cs.length + 2 := if_neg hdouble
    split <;> omega

/-- A text that is short enough and fits is a simple key. --/
theorem writesKey_scalar {anchor : Option String} {text : Wobbly} (p : Page)
    (hsimple : isSimpleKey (.scalar anchor tag text literal) = true) (htag : ∀ t, tag ≠ .other t)
    (hclear : IsClearText true tag text literal) (hfits : FitsText indent .simpleKey anchor tag text literal) :
    ∃ w, anchor.elim 0 (·.length + 2) + w.length ≤ 1024 ∧
      WritesKey p (writeScalar p indent .simpleKey tag text literal) w (scalarTokens true tag text literal) := by
  cases text with
  | whole s =>
    simp only [isSimpleKey, Bool.and_eq_true, decide_eq_true_eq] at hsimple
    have hle := keyLength_le hfits (by rw [String.length_toList]; exact hsimple.1.1)
    obtain ⟨w, hw, hkey⟩ := writesKey_whole p indent htag hclear
    exact ⟨w, by omega, hkey⟩
  | torn t =>
    obtain rfl : tag = .str := hclear
    have hkey := writesKey_double p (deeper_pos indent) (Wobbly.torn t).points
    rw [Wobbly.ofPoints_points] at hkey
    have hquoted : quotedLength anchor .str (Wobbly.torn t).points ≤ 1024 := hfits trivial
    exact ⟨_, by simpa [quotedLength] using hquoted, hkey⟩

/-- A node without parts that is short enough is a simple key. --/
theorem writesKey_of_isSimpleKey : (o : Outline) → (hleaf : isLeaf o = true) → (hsimple : isSimpleKey o = true) →
    (h : IsLegible true o) → (hfits : Fits indent .simpleKey true o) →
    ∃ w, w.length ≤ 1024 ∧ WritesKey p (write p indent .simpleKey o) w (tokens .simpleKey true o)
  | .alias name, _, hsimple, h, _ => by
    have hlen : name.length < 128 := by simpa [isSimpleKey] using hsimple
    exact ⟨_, by simp only [List.length_cons, String.length_toList]; omega, writesKey_alias h⟩
  | .scalar anchor tag text literal, _, hsimple, h, hfits => by
    obtain ⟨hanchor, htag, hclear⟩ := h
    cases anchor with
    | none =>
      obtain ⟨w, hw, hkey⟩ := writesKey_scalar p hsimple htag hclear hfits
      exact ⟨w, by rw [Option.elim_none] at hw; omega, hkey⟩
    | some name =>
      obtain ⟨hclosed, hinline⟩ := closed_anchorMark (hanchor name rfl)
      obtain ⟨w, hw, hkey⟩ := writesKey_scalar (p.mark ('&' :: name.toList)) hsimple htag hclear hfits
      refine ⟨_, ?_, hkey.mark hclosed hinline⟩
      rw [Option.elim_some] at hw
      simp only [List.length_append, List.length_cons, String.length_toList]
      omega

end Outline

/-! ### Collections on a page -/

theorem Cursor.column_advance_mark (hc : c.rest = x :: bs) (hx : isInline x = true) :
    (c.advance 1).column = c.column + 1 := by
  rw [← Cursor.step_eq_advance, Cursor.step_of_inline hc hx]

/-- A page on which the next thing written stands in a column, with nothing but marks before it. --/
structure Page.At (p : Page) (n : Nat) : Prop where
  column : p.column = n
  afterBlank : p.afterBlank = true
  indenting : p.indenting = true

theorem Page.At.indent (h : p.At n) : p.indent n = p := by
  unfold Page.indent
  simp [h.column, h.afterBlank, h.indenting]

theorem Page.Wrote.isAt (h : Wrote p q cs n true true) : q.At n :=
  ⟨h.column, h.afterBlank, h.indenting⟩

/-- From one page to another the entries of a block collection were written, from the column of the collection on. --/
structure WritesBlock (n : Nat) (start : Token) (p q : Page) (body : List Char) (out : List Token) : Prop where
  closes : Closes p q body
  ne_nil : body ≠ []
  starts : Starts body
  reads : ∀ {s c ts cols m text}, Stands s c ts cols none true (body ++ '\n' :: (List.replicate m ' ' ++ text)) →
    c.column = n → (∀ i, cols.head? = some i → i ≤ n) → Follows (opened cols n) m text →
    ∃ c', c'.column = m ∧ Stands s c' (ts ++ opening cols n start ++ out ++ ends (opened cols n) m)
      ((opened cols n).dropWhile (m < ·)) none true text

variable {start : Token}

theorem ends_of_le (h : ∀ i, cols.head? = some i → i ≤ m) : ends cols m = [] ∧ cols.dropWhile (m < ·) = cols := by
  cases cols with
  | nil => exact ⟨rfl, rfl⟩
  | cons i cols =>
    have hi : ¬m < i := Nat.not_lt.mpr (h i rfl)
    simp [ends, hi]

theorem head?_opened (h : ∀ i, cols.head? = some i → i ≤ n) : (opened cols n).head? = some n := by
  cases cols with
  | nil => rfl
  | cons i cols =>
    by_cases hlt : i < n
    · simp [opened, opens, hlt]
    · obtain rfl : i = n := Nat.le_antisymm (h i rfl) (Nat.not_lt.mp hlt)
      simp [opened, opens]

theorem Scanner.Follows.opened (h : Follows cols m text) (hcols : ∀ i, cols.head? = some i → i ≤ n) :
    Follows (Scanner.opened cols n) m text := by
  refine ⟨h.starts, fun i hi => ?_, fun hnil => ?_⟩
  · rw [head?_opened hcols] at hi
    cases hi
    cases hc : cols.head? with
    | none => exact (h.alone (List.head?_eq_none_iff.mp hc)).1 ▸ Nat.zero_le _
    | some j => exact Nat.le_trans (h.column j hc) (hcols j hc)
  · have := head?_opened hcols
    rw [hnil] at this
    cases this

/-- A block collection starts on the line of the mark before it, or else on a line of its own. --/
theorem WritesBlock.writes {body : List Char} (h : WritesBlock n start (p.indent n) q body out)
    (hp : p.indenting = false ∨ (p.indenting = true ∧ p.column < n) ∨ p.At n)
    (hcols : ∀ i, cols.head? = some i → i ≤ n) :
    ∃ body', Writes p q cols (opened cols n) body' (opening cols n start ++ out) := by
  -- Text stands on the line; or only marks do, with the column ahead; or the page is in the column already.
  rcases hp with hi | ⟨hi, hlt⟩ | hat
  · refine ⟨'\n' :: List.replicate n ' ' ++ body, h.closes.prepend (wrote_indent_of_text hi),
      fun _ => ⟨'\n', _, rfl, by decide⟩, fun {s c ts k m text} hs hcol hfollows hk => ?_⟩
    rw [List.cons_append, List.cons_append, List.append_assoc] at hs
    have hstands := hs.stands_line (h.starts.append h.ne_nil _) hk
    obtain ⟨hends, hdrop⟩ := ends_of_le hcols
    rw [hends, hdrop, List.append_nil] at hstands
    rw [← List.append_assoc]
    exact h.reads hstands (by rw [Cursor.advance_line hs.rest]) hcols (hfollows.opened hcols)
  · have hwrote := wrote_indent_of_marks hi hlt
    refine ⟨List.replicate (n - p.column) ' ' ++ body, h.closes.prepend hwrote, fun _ => ?_,
      fun {s c ts k m text} hs hcol hfollows hk => ?_⟩
    · obtain ⟨j, hj⟩ : ∃ j, n - p.column = j + 1 := ⟨n - p.column - 1, by omega⟩
      exact ⟨' ', List.replicate j ' ' ++ body, by rw [hj, List.replicate_succ, List.cons_append], by decide⟩
    · rw [hi] at hs
      obtain rfl := hs.allowed rfl
      rw [List.append_assoc] at hs
      have hstands := hs.stands (h.starts.append h.ne_nil _)
        (fun i hi => by have := hcols i hi; omega) spared_none
      rw [← List.append_assoc]
      exact h.reads hstands (by rw [Cursor.advance_spaces hs.rest]; simp only; omega) hcols (hfollows.opened hcols)
  · refine ⟨body, by simpa [hat.indent] using h.closes, fun ha => ?_, fun {s c ts k m text} hs hcol hfollows hk => ?_⟩
    · rw [hat.afterBlank] at ha
      cases ha
    · rw [hat.indenting] at hs
      obtain rfl := hs.allowed rfl
      have hstands := Waits.stands (n := 0) hs (h.starts.append h.ne_nil _)
        (fun i hi => by rw [hcol, hat.column]; exact hcols i hi) spared_none
      rw [← List.append_assoc]
      exact h.reads hstands (hcol.trans hat.column) hcols (hfollows.opened hcols)

/-- A collection that is indented more than what is around it ends with its last line. --/
theorem Writes.close (h : Writes p q cols (n :: cols) bs out) (hne : cols ≠ []) (hn : Deeper cols n) :
    Writes p q cols cols bs (out ++ [.blockEnd]) := by
  refine ⟨h.closes, h.head, fun {s c ts k m text} hs hcol hfollows hk => ?_⟩
  obtain ⟨c', hm, hc'⟩ := h.reads hs hcol hfollows hk
  have hlt : m < n := by
    cases cols with
    | nil => exact absurd rfl hne
    | cons i cols => exact Nat.lt_of_le_of_lt (hfollows.column i rfl) (hn i rfl)
  have hends : ends (n :: cols) m = .blockEnd :: ends cols m := by
    simp [ends, hlt, List.replicate_succ]
  rw [hends, List.dropWhile_cons_of_pos (by simpa using hlt)] at hc'
  exact ⟨c', hm, by simpa using hc'⟩

/-- A collection within another is indented more and has marks of its own. --/
theorem WritesBlock.nested {body : List Char} (h : WritesBlock n start (p.indent n) q body out)
    (hp : p.indenting = false ∨ (p.indenting = true ∧ p.column < n) ∨ p.At n) (hne : cols ≠ []) (hn : Deeper cols n) :
    ∃ body', Writes p q cols cols body' (start :: out ++ [.blockEnd]) := by
  obtain ⟨body', hbody⟩ := h.writes hp hn.le
  have hopens : opens cols n = true := by
    cases cols with
    | nil => rfl
    | cons i cols => simpa [opens] using hn i rfl
  simp only [opened, opening, hopens, if_true] at hbody
  exact ⟨body', hbody.close hne hn⟩

/-- A collection that is open in a column is not opened there again. --/
theorem opens_of_head? (h : cols.head? = some n) : opens cols n = false := by
  cases cols with
  | nil => cases h
  | cons i cols =>
    cases h
    simp [opens]

theorem opened_of_head? (h : cols.head? = some n) : opened cols n = cols := by
  rw [opened, opens_of_head? h]
  rfl

theorem opening_of_head? (h : cols.head? = some n) (t : Token) : opening cols n t = [] := by
  rw [opening, opens_of_head? h]
  rfl

theorem le_of_head? (h : cols.head? = some n) : ∀ i, cols.head? = some i → i ≤ n := by
  intro i hi
  rw [h] at hi
  cases hi
  exact Nat.le_refl _

/-- In the column of the innermost collection its next entry may follow. --/
theorem follows_of_head? (h : cols.head? = some n) (htext : Starts text) : Follows cols n text := by
  refine ⟨htext, fun i hi => ?_, fun hnil => ?_⟩
  · rw [h] at hi
    cases hi
    exact Nat.le_refl _
  · rw [hnil] at h
    cases h

/-- A collection in the column of the one around it has no marks. --/
theorem WritesBlock.loose {body : List Char} (h : WritesBlock n start (p.indent n) q body out)
    (hp : p.indenting = false) (hcols : cols.head? = some n) : ∃ body', Writes p q cols cols body' out := by
  obtain ⟨body', hbody⟩ := h.writes (.inl hp) (le_of_head? hcols)
  rw [opened_of_head? hcols, opening_of_head? hcols] at hbody
  exact ⟨body', hbody⟩

theorem Page.at_indent (hp : p.indenting = false ∨ (p.indenting = true ∧ p.column < n) ∨ p.At n) :
    (p.indent n).At n := by
  rcases hp with hi | ⟨hi, hlt⟩ | hat
  · exact (wrote_indent_of_text hi).isAt
  · exact (wrote_indent_of_marks hi hlt).isAt
  · rwa [hat.indent]

/-- Entries of a collection on the next lines go on with it. --/
theorem WritesBlock.append (h : WritesBlock n start p q w out) (h' : WritesBlock n start (q.indent n) r v out') :
    WritesBlock n start p r (w ++ '\n' :: List.replicate n ' ' ++ v) (out ++ out') := by
  refine ⟨h'.closes.prepend (h.closes n), by simp, ?_, fun {s c ts cols m text} hs hcol hcols hfollows => ?_⟩
  · rw [List.append_assoc]
    exact h.starts.append h.ne_nil _
  · have hhead := head?_opened hcols
    simp only [List.append_assoc, List.cons_append] at hs
    obtain ⟨c', hm, hc'⟩ := h.reads hs hcol hcols (follows_of_head? hhead (h'.starts.append h'.ne_nil _))
    obtain ⟨hends, hdrop⟩ := ends_of_le (le_of_head? hhead)
    rw [hends, hdrop, List.append_nil] at hc'
    obtain ⟨c'', hm', hc''⟩ := h'.reads hc' hm (le_of_head? hhead) (by rwa [opened_of_head? hhead])
    rw [opened_of_head? hhead, opening_of_head? hhead, List.append_nil] at hc''
    exact ⟨c'', hm', by simpa only [List.append_assoc] using hc''⟩

theorem Page.Closes.unique (h : Closes p q w) (h' : Closes p q v) : w = v := by
  have hw := (h 0).reversed
  rw [(h' 0).reversed] at hw
  simpa using hw.symm

/-- What is written for a node depends on the pages alone. --/
theorem writes_uniform (h : ∀ {cols}, cols.head? = some n → ∃ body, Writes p q cols cols body out) :
    ∃ body, ∀ {cols}, cols.head? = some n → Writes p q cols cols body out := by
  obtain ⟨body, hbody⟩ := @h [n] rfl
  refine ⟨body, fun {cols} hcols => ?_⟩
  obtain ⟨body', hbody'⟩ := h hcols
  rwa [hbody.closes.unique hbody'.closes]

theorem isGap_of_endsProperty (hx : endsProperty x = true) : isGap x = true := by
  rcases endsProperty_cases hx with rfl | rfl <;> decide

theorem Page.At.entryMark (h : p.At n) (x : Char) : Wrote p (p.entryMark x) [x] (n + 1) false true := by
  have hmark := wrote_entryMark p x
  rw [h.indenting, h.column] at hmark
  simpa [lead, h.afterBlank] using hmark

/-- An item behind its mark. --/
theorem writesBlock_item (hp : p.At n)
    (h : ∀ {cols}, cols.head? = some n → Writes (p.entryMark '-') q cols cols bs out) :
    WritesBlock n .blockSequenceStart p q ('-' :: bs) (.blockEntry :: out) := by
  have hmark := hp.entryMark '-'
  obtain ⟨x, rest, rfl, hx⟩ := (@h [n] rfl).head hmark.afterBlank
  refine ⟨(@h [n] rfl).closes.prepend hmark, by simp, starts_of_mark (by decide),
    fun {s c ts cols m text} hs hcol hcols hfollows => ?_⟩
  have hwaits := hs.item (isGap_of_endsProperty hx)
  rw [hcol, ← hmark.indenting] at hwaits
  obtain ⟨c', hm, hc'⟩ := (h (head?_opened hcols)).reads hwaits
    (by rw [hmark.column, ← hcol]; exact Cursor.column_advance_mark hs.rest (by decide)) hfollows harmless_none
  exact ⟨c', hm, by simpa using hc'⟩

/-- A simple key, its colon, and its value. --/
theorem writesBlock_simpleKey (hp : p.At n) (hkey : WritesKey p q w out) (hlen : w.length ≤ 1024)
    (h : ∀ {cols}, cols.head? = some n → Writes (q.closeMark [':']) r cols cols bs out') :
    WritesBlock n .blockMappingStart p r (w ++ ':' :: bs) (.key :: out ++ .value :: out') := by
  have hwrote : Wrote p q w (n + w.length) false false := by
    simpa [lead, hp.afterBlank, hp.column] using hkey.wrote
  have hcolon := wrote_closeMark q [':']
  obtain ⟨x, rest, rfl, hx⟩ := (@h [n] rfl).head hcolon.afterBlank
  refine ⟨?_, by simp, hkey.reads.starts.append hkey.reads.ne_nil _, fun {s c ts cols m text} hs hcol hcols hfollows => ?_⟩
  · simpa using (@h [n] rfl).closes.prepend (hwrote.trans hcolon)
  · rw [List.append_assoc, List.cons_append] at hs
    have hline := Cursor.advance_inline hs.rest hkey.inline
    have hfresh : isFresh (c.advance w.length) (here c ts cols) = true := by
      simp only [isFresh, here, hline, beq_self_eq_true, Bool.true_and, decide_eq_true_eq]
      omega
    have hspared : Spared (c.advance w.length) (noted true none c ts cols) := by
      rintro y ⟨⟩ _
      exact hfresh
    have hgap := isGap_of_endsProperty hx
    have hwaits := (hkey.reads.reads hs hgap (by rwa [hcol]) hspared).value hgap hfresh fun i hi => by
      rw [hline]
      exact Nat.le_trans (hcol ▸ hcols i hi) (Nat.le_add_right ..)
    have hnumber : (here c ts cols).number = ts.length := rfl
    have hcolumn : (here c ts cols).column = n := hcol
    rw [hnumber, hcolumn, List.take_left, List.drop_left, ← hcolon.indenting] at hwaits
    obtain ⟨c', hm, hc'⟩ := (h (head?_opened hcols)).reads hwaits
      (by
        have hrest : (c.advance w.length).rest = ':' :: (x :: rest ++ '\n' :: (List.replicate m ' ' ++ text)) := by
          rw [hline]
        rw [Cursor.column_advance_mark hrest (by decide), hline, hcolon.column, hwrote.column, hcol]
        rfl)
      hfollows harmless_none
    exact ⟨c', hm, by simpa using hc'⟩

/-- Another key behind its mark, and its value behind its own. --/
theorem writesBlock_key (hp : p.At n)
    (hkey : ∀ {cols}, cols.head? = some n → Writes (p.entryMark '?') q cols cols w out)
    (h : ∀ {cols}, cols.head? = some n → Writes ((q.indent n).entryMark ':') r cols cols bs out') :
    WritesBlock n .blockMappingStart p r ('?' :: w ++ '\n' :: List.replicate n ' ' ++ ':' :: bs)
      (.key :: out ++ .value :: out') := by
  have hmark := hp.entryMark '?'
  have hnext := (@hkey [n] rfl).closes n
  have hmark' := hnext.isAt.entryMark ':'
  obtain ⟨x, rest, rfl, hx⟩ := (@hkey [n] rfl).head hmark.afterBlank
  obtain ⟨y, rest', rfl, hy⟩ := (@h [n] rfl).head hmark'.afterBlank
  refine ⟨?_, by simp, starts_of_mark (by decide), fun {s c ts cols m text} hs hcol hcols hfollows => ?_⟩
  · simpa using (@h [n] rfl).closes.prepend ((hmark.trans hnext).trans hmark')
  · have hhead := head?_opened hcols
    simp only [List.append_assoc, List.cons_append] at hs
    have hwaits := hs.key (isGap_of_endsProperty hx)
    rw [hcol, ← hmark.indenting] at hwaits
    obtain ⟨c', hm, hc'⟩ := (hkey hhead).reads hwaits
      (by rw [hmark.column, ← hcol]; exact Cursor.column_advance_mark hs.rest (by decide))
      (follows_of_head? hhead (starts_of_mark (by decide))) harmless_none
    obtain ⟨hends, hdrop⟩ := ends_of_le (le_of_head? hhead)
    rw [hends, hdrop, List.append_nil] at hc'
    have hwaits' := hc'.value (isGap_of_endsProperty hy)
    rw [hm, opened_of_head? hhead, opening_of_head? hhead, List.append_nil, ← hmark'.indenting] at hwaits'
    obtain ⟨c'', hm', hc''⟩ := (h hhead).reads hwaits'
      (by rw [hmark'.column, ← hm]; exact Cursor.column_advance_mark hc'.rest (by decide)) hfollows harmless_none
    exact ⟨c'', hm', by simpa using hc''⟩

/-- A place inside the collection in a column, for a value or an item. --/
structure Page.Inside (p : Page) (n : Nat) : Prop where
  column : n < p.column
  indenting : p.indenting = true → p.column = n + 1

theorem Page.inside_of_wrote (h : Wrote p q cs (n + 1) false true) : q.Inside n :=
  ⟨by rw [h.column]; exact Nat.lt_succ_self n, fun _ => h.column⟩

theorem Page.Inside.mark (h : p.Inside n) (w : List Char) : (p.mark w).Inside n := by
  have hmark := wrote_mark p w
  refine ⟨?_, fun hi => ?_⟩
  · have := h.column
    rw [hmark.column]
    omega
  · rw [hmark.indenting] at hi
    cases hi

/-- Two columns further on a collection can start. --/
theorem Page.Inside.ahead (h : p.Inside n) :
    p.indenting = false ∨ (p.indenting = true ∧ p.column < n + 2) ∨ p.At (n + 2) := by
  cases hi : p.indenting
  · exact .inl rfl
  · exact .inr (.inl ⟨rfl, by rw [h.indenting hi]; omega⟩)

theorem Page.Inside.deeper (h : p.Inside n) (hcols : cols.head? = some n) : Deeper cols p.column := by
  intro i hi
  rw [hcols] at hi
  cases hi
  exact h.column

namespace Outline

variable {anchor : Option String} {tag : Tag} {literal : Bool} {indent : Option Nat} {place : Place}

theorem writeItems_indent (n : Nat) {os : List Outline} (h : os ≠ []) (hp : (p.indent n).At n) :
    writeItems p n os = writeItems (p.indent n) n os := by
  cases os with
  | nil => exact absurd rfl h
  | cons o os => rw [writeItems, writeItems, hp.indent]

theorem writeEntries_indent (n : Nat) {es : List (Outline × Outline)} (h : es ≠ []) (hp : (p.indent n).At n) :
    writeEntries p n es = writeEntries (p.indent n) n es := by
  cases es with
  | nil => exact absurd rfl h
  | cons e es => obtain ⟨k, v⟩ := e; rw [writeEntries, writeEntries, hp.indent]

theorem writes_anchor (ha : IsAnchor anchor) (hcols : Deeper cols p.column)
    (h : ∃ bs, Writes (writeAnchor p anchor) q cols cols' bs out) :
    ∃ bs, Writes p q cols cols' bs (anchorTokens anchor ++ out) := by
  obtain ⟨bs, h⟩ := h
  cases anchor with
  | none => exact ⟨bs, h⟩
  | some name =>
    obtain ⟨hclosed, hinline⟩ := closed_anchorMark (ha name rfl)
    exact ⟨_, h.mark hclosed hinline hcols⟩

theorem writes_tag (htag : ∀ t, tag ≠ .other t) (hcols : Deeper cols p.column)
    (h : ∃ bs, Writes (if tag == .map then p else p.mark (tagText tag)) q cols cols' bs out) :
    ∃ bs, Writes p q cols cols' bs ((if tag = .map then [] else [tagToken tag]) ++ out) := by
  obtain ⟨bs, h⟩ := h
  by_cases hmap : tag = .map
  · subst hmap
    exact ⟨bs, h⟩
  · obtain ⟨hclosed, hinline⟩ := closed_tagText htag
    rw [if_neg (by simpa using hmap)] at h
    rw [if_neg hmap]
    exact ⟨_, h.mark hclosed hinline hcols⟩

theorem writes_alias {name : String} (h : IsName name.toList) (hcols : Deeper cols p.column) :
    Writes p (p.mark ('*' :: name.toList)) cols cols (p.lead ++ '*' :: name.toList) [.alias name] := by
  have hclosed := closed_alias h
  rw [String.ofList_toList] at hclosed
  exact (hclosed.property.readsLine cols).writes (wrote_mark p _).closes hcols

/-- The marks of an empty collection are a node. --/
theorem writes_empty {x y : Char} {t t' : Token} (h : Closed endsContent [x, y] [t, t']) (hcols : Deeper cols p.column) :
    Writes p ((p.mark [x]).closeMark [y]) cols cols (p.lead ++ [x, y]) [t, t'] := by
  refine (h.property.readsLine cols).writes ?_ hcols
  have hwrote := (wrote_mark p [x]).trans (wrote_closeMark _ [y])
  rw [List.append_assoc] at hwrote
  exact hwrote.closes

theorem Inside.writeAnchor (h : p.Inside n) (anchor : Option String) : (writeAnchor p anchor).Inside n := by
  cases anchor with
  | none => exact h
  | some name => exact h.mark _

theorem Inside.tagged (h : p.Inside n) (tag : Tag) :
    (if tag == .map then p else p.mark (tagText tag)).Inside n := by
  split
  · exact h
  · exact h.mark _

/-- A mapping with entries is indented more than what is around it. --/
theorem writes_entries {es : List (Outline × Outline)} (hne : es ≠ []) (hp : p.Inside n) (hcols : cols.head? = some n)
    (h : ∀ {p : Page}, p.At (n + 2) →
      ∃ body, WritesBlock (n + 2) .blockMappingStart p (writeEntries p (n + 2) es) body (entriesTokens es)) :
    ∃ body, Writes p (writeEntries p (n + 2) es) cols cols body
      (.blockMappingStart :: entriesTokens es ++ [.blockEnd]) := by
  have hat := Page.at_indent hp.ahead
  obtain ⟨body, hbody⟩ := h hat
  rw [writeEntries_indent _ hne hat]
  exact hbody.nested hp.ahead (by rintro rfl; cases hcols) fun i hi => by
    rw [hcols] at hi
    cases hi
    omega

/-- A sequence with items is indented more, or else stands in the column of the mapping around it. --/
theorem writes_items {os : List Outline} (hne : os ≠ []) (hp : p.Inside n) (hcols : cols.head? = some n)
    (loose : Bool) (hloose : loose = true → p.indenting = false)
    (h : ∀ {p : Page}, p.At (if loose then n else n + 2) → ∃ body, WritesBlock (if loose then n else n + 2)
      .blockSequenceStart p (writeItems p (if loose then n else n + 2) os) body (itemsTokens os)) :
    ∃ body, Writes p (writeItems p (if loose then n else n + 2) os) cols cols body
      (if loose then itemsTokens os else .blockSequenceStart :: itemsTokens os ++ [.blockEnd]) := by
  cases loose with
  | false =>
    rw [if_neg Bool.false_ne_true] at h
    have hat := Page.at_indent hp.ahead
    obtain ⟨body, hbody⟩ := h hat
    rw [if_neg Bool.false_ne_true, if_neg Bool.false_ne_true, writeItems_indent _ hne hat]
    exact hbody.nested hp.ahead (by rintro rfl; cases hcols) fun i hi => by
      rw [hcols] at hi
      cases hi
      omega
  | true =>
    have hat : (p.indent n).At n := Page.at_indent (.inl (hloose rfl))
    obtain ⟨body, hbody⟩ := h hat
    rw [if_pos rfl, if_pos rfl, writeItems_indent _ hne hat]
    exact hbody.loose (hloose rfl) hcols

mutual

/-- A node that can be read again is read as its tokens. --/
theorem writes_node : (o : Outline) → IsLegible false o → ∀ {p : Page} {place : Place} {n : Nat} {cols : List Nat},
    Fits (some n) place p.indenting o → place = .item ∨ place = .entry → cols.head? = some n → p.Inside n →
    ∃ body, Writes p (write p (some n) place o) cols cols body (tokens place p.indenting o)
  | .alias name, h, p, place, n, cols, _, _, hcols, hp => ⟨_, writes_alias h (hp.deeper hcols)⟩
  | .scalar anchor tag text literal, ⟨ha, htag, hclear⟩, p, place, n, cols, hfits, hplace, hcols, hp => by
    have hsimple : place ≠ .simpleKey := by rcases hplace with rfl | rfl <;> decide
    have hin := Inside.writeAnchor hp anchor
    have hn : Deeper cols (deeper (some n) 2) := fun i hi => by
      rw [hcols] at hi
      cases hi
      exact Nat.lt_add_of_pos_right (by decide)
    refine writes_anchor ha (hp.deeper hcols) ?_
    rw [Fits, FitsText, decide_eq_false hsimple, if_neg hsimple] at hfits
    rw [decide_eq_false hsimple]
    exact writes_scalar hsimple htag hclear hfits hn (hin.deeper hcols)
  | .seq anchor [], ⟨ha, _⟩, p, place, n, cols, _, _, hcols, hp => by
    have hin := Inside.writeAnchor hp anchor
    exact writes_anchor ha (hp.deeper hcols)
      ⟨_, writes_empty (closed_empty (.inl ⟨rfl, rfl, rfl, rfl⟩)) (hin.deeper hcols)⟩
  | .seq anchor (o :: os), ⟨ha, hos⟩, p, place, n, cols, hfits, hplace, hcols, hp => by
    have hin := Inside.writeAnchor hp anchor
    -- The writer looks at the page behind the anchor, `isLoose` at the one before it; an anchor settles both.
    have hloose : isLoose place p.indenting anchor =
        ((place = .entry || place = .simpleKey) && !(writeAnchor p anchor).indenting) := by
      cases anchor with
      | none => rfl
      | some name => rw [writeAnchor, (wrote_mark p _).indenting]; rfl
    have hblock := writes_items (List.cons_ne_nil o os) hin hcols (isLoose place p.indenting anchor)
      (fun h => by
        rw [hloose, Bool.and_eq_true, Bool.not_eq_true'] at h
        exact h.2)
      (writesBlock_items (o :: os) (by simp) hos hfits)
    rw [tokens]
    refine writes_anchor ha (hp.deeper hcols) ?_
    simp only [write, ← hloose]
    exact hblock
  | .map anchor tag [], ⟨ha, htag, _⟩, p, place, n, cols, _, _, hcols, hp => by
    have hin := Inside.writeAnchor hp anchor
    have htagged := Inside.tagged hin tag
    rw [tokens, List.append_assoc]
    exact writes_anchor ha (hp.deeper hcols) (writes_tag htag (hin.deeper hcols)
      ⟨_, writes_empty (closed_empty (.inr ⟨rfl, rfl, rfl, rfl⟩)) (htagged.deeper hcols)⟩)
  | .map anchor tag (e :: es), ⟨ha, htag, hes⟩, p, place, n, cols, hfits, _, hcols, hp => by
    have hin := Inside.writeAnchor hp anchor
    have htagged := Inside.tagged hin tag
    have hblock := writes_entries (List.cons_ne_nil e es) htagged hcols (writesBlock_entries (e :: es) (by simp) hes hfits)
    rw [tokens, List.append_assoc]
    exact writes_anchor ha (hp.deeper hcols) (writes_tag htag (hin.deeper hcols) hblock)

/-- Items that can be read again are read as their tokens. --/
theorem writesBlock_items : (os : List Outline) → os ≠ [] → AreLegible os → ∀ {n : Nat}, ItemsFit n os →
    ∀ {p : Page}, p.At n → ∃ body, WritesBlock n .blockSequenceStart p (writeItems p n os) body (itemsTokens os)
  | [], hne, _, _, _, _, _ => absurd rfl hne
  | o :: os, _, ⟨ho, hos⟩, n, ⟨hfit, hfits⟩, p, hp => by
    have hmark := hp.entryMark '-'
    obtain ⟨body, hbody⟩ := writes_uniform fun {cols} hcols =>
      writes_node o ho (hmark.indenting.symm ▸ hfit) (.inl rfl) hcols (inside_of_wrote hmark)
    rw [hmark.indenting] at hbody
    have hitem := writesBlock_item hp hbody
    rw [writeItems, hp.indent]
    by_cases hos' : os = []
    · subst hos'
      exact ⟨_, by simpa only [itemsTokens, writeItems, List.append_nil] using hitem⟩
    · have hat := (hitem.closes n).isAt
      obtain ⟨rest, hrest⟩ := writesBlock_items os hos' hos hfits hat
      rw [writeItems_indent _ hos' hat]
      exact ⟨_, hitem.append hrest⟩

/-- Entries that can be read again are read as their tokens. --/
theorem writesBlock_entries : (es : List (Outline × Outline)) → es ≠ [] → EntriesAreLegible es → ∀ {n : Nat},
    EntriesFit n es → ∀ {p : Page}, p.At n →
    ∃ body, WritesBlock n .blockMappingStart p (writeEntries p n es) body (entriesTokens es)
  | [], hne, _, _, _, _, _ => absurd rfl hne
  | (k, v) :: es, _, ⟨hleaf, hk, hv, hes⟩, n, ⟨hfitk, hfitv, hfits⟩, p, hp => by
    have hentry : ∃ body q, writeEntries p n ((k, v) :: es) = writeEntries q n es ∧
        WritesBlock n .blockMappingStart p q body (entriesTokens [(k, v)]) := by
      cases hsimple : isSimpleKey k with
      | true =>
        rw [hsimple] at hk hfitk hfitv
        obtain ⟨w, hlen, hkey⟩ := @writesKey_of_isSimpleKey p (some n) k hleaf hsimple hk hfitk
        -- The colon ends beyond the column of the mapping, so the value stands inside.
        have hin : ((write p (some n) .simpleKey k).closeMark [':']).Inside n := by
          have hcolon := wrote_closeMark (write p (some n) .simpleKey k) [':']
          refine ⟨?_, fun hi => ?_⟩
          · rw [hcolon.column, hkey.wrote.column, hp.column]
            simp only [List.length_append, List.length_singleton]
            omega
          · rw [hcolon.indenting] at hi
            cases hi
        obtain ⟨body, hbody⟩ := writes_uniform fun {cols} hcols =>
          writes_node v hv ((wrote_closeMark _ _).indenting.symm ▸ hfitv) (.inr rfl) hcols hin
        rw [(wrote_closeMark _ _).indenting] at hbody
        refine ⟨w ++ ':' :: body, write ((write p (some n) .simpleKey k).closeMark [':']) (some n) .entry v,
          by simp [writeEntries, hp.indent, hsimple], ?_⟩
        simpa [entriesTokens, hsimple] using writesBlock_simpleKey hp hkey hlen hbody
      | false =>
        rw [hsimple] at hk hfitk hfitv
        -- Key and value stand behind marks of their own, the one of the value on a new line in the same column.
        have hmark := hp.entryMark '?'
        obtain ⟨w, hw⟩ := writes_uniform fun {cols} hcols =>
          writes_node k hk (hmark.indenting.symm ▸ hfitk) (.inr rfl) hcols (inside_of_wrote hmark)
        have hmark' := ((@hw [n] rfl).closes n).isAt.entryMark ':'
        obtain ⟨body, hbody⟩ := writes_uniform fun {cols} hcols =>
          writes_node v hv (hmark'.indenting.symm ▸ hfitv) (.inr rfl) hcols (inside_of_wrote hmark')
        rw [hmark.indenting] at hw
        rw [hmark'.indenting] at hbody
        refine ⟨'?' :: w ++ '\n' :: List.replicate n ' ' ++ ':' :: body,
          write (((write (p.entryMark '?') (some n) .entry k).indent n).entryMark ':') (some n) .entry v,
          by simp [writeEntries, hp.indent, hsimple], ?_⟩
        simpa [entriesTokens, hsimple] using writesBlock_key hp hw hbody
    obtain ⟨body, q, heq, hentry⟩ := hentry
    rw [heq]
    by_cases hes' : es = []
    · subst hes'
      exact ⟨_, hentry⟩
    · have hat := (hentry.closes n).isAt
      obtain ⟨rest, hrest⟩ := writesBlock_entries es hes' hes hfits hat
      rw [writeEntries_indent _ hes' hat]
      refine ⟨body ++ '\n' :: List.replicate n ' ' ++ rest, ?_⟩
      simpa [entriesTokens] using hentry.append hrest

end

/-! ### Whole texts -/

theorem deeper_nil (n : Nat) : Deeper [] n := nofun

/-- A page on which a collection can start at the margin. --/
def AtMargin (p : Page) : Prop :=
  p.indenting = false ∨ (p.indenting = true ∧ p.column < 0) ∨ p.At 0

theorem AtMargin.anchored (h : AtMargin p) (anchor : Option String) : AtMargin (writeAnchor p anchor) := by
  cases anchor with
  | none => exact h
  | some name => exact .inl (wrote_mark p _).indenting

theorem AtMargin.tagged (h : AtMargin p) (tag : Tag) : AtMargin (if tag == .map then p else p.mark (tagText tag)) := by
  split
  · exact h
  · exact .inl (wrote_mark p _).indenting

/-- A node alone is read as its tokens, but for the ends of its collections. --/
theorem writes_root : (o : Outline) → IsLegible false o → Fits none .root true o → ∃ cols out body,
    Writes {} (write {} none .root o) [] cols body out ∧
      out ++ List.replicate cols.length .blockEnd = tokens .root true o
  | .alias name, h, _ => ⟨[], _, _, writes_alias h (deeper_nil _), rfl⟩
  | .scalar anchor tag text literal, ⟨ha, htag, hclear⟩, hfits => by
    obtain ⟨body, hbody⟩ := writes_anchor (p := {}) ha (deeper_nil _)
      (@writes_scalar (writeAnchor {} anchor) [] tag literal none .root text (by decide) htag hclear hfits
        (deeper_nil _) (deeper_nil _))
    exact ⟨[], _, body, hbody, by simp [tokens]⟩
  | .seq anchor [], ⟨ha, _⟩, _ => by
    obtain ⟨body, hbody⟩ := writes_anchor (p := {}) ha (deeper_nil _)
      ⟨_, writes_empty (closed_empty (.inl ⟨rfl, rfl, rfl, rfl⟩)) (deeper_nil _)⟩
    exact ⟨[], _, body, hbody, by simp [tokens]⟩
  | .map anchor tag [], ⟨ha, htag, _⟩, _ => by
    obtain ⟨body, hbody⟩ := writes_anchor (p := {}) ha (deeper_nil _) (writes_tag htag (deeper_nil _)
      ⟨_, writes_empty (closed_empty (.inr ⟨rfl, rfl, rfl, rfl⟩)) (deeper_nil _)⟩)
    exact ⟨[], _, body, hbody, by simp [tokens]⟩
  | .seq anchor (o :: os), ⟨ha, hos⟩, hfits => by
    have hp : AtMargin (writeAnchor {} anchor) := AtMargin.anchored (.inr (.inr ⟨rfl, rfl, rfl⟩)) anchor
    have hat := Page.at_indent hp
    obtain ⟨block, hblock⟩ := @writesBlock_items (o :: os) (by simp) hos 0 hfits _ hat
    obtain ⟨body, hbody⟩ := writes_anchor (p := {}) ha (deeper_nil _) (hblock.writes hp nofun)
    rw [← writeItems_indent 0 (List.cons_ne_nil o os) hat] at hbody
    exact ⟨[0], _, body, hbody, by simp [tokens, isLoose, opening, opens]⟩
  | .map anchor tag (e :: es), ⟨ha, htag, hes⟩, hfits => by
    have hp := AtMargin.tagged (AtMargin.anchored (p := {}) (.inr (.inr ⟨rfl, rfl, rfl⟩)) anchor) tag
    have hat := Page.at_indent hp
    obtain ⟨block, hblock⟩ := @writesBlock_entries (e :: es) (by simp) hes 0 hfits _ hat
    obtain ⟨body, hbody⟩ := writes_anchor (p := {}) ha (deeper_nil _)
      (writes_tag htag (deeper_nil _) (hblock.writes hp nofun))
    rw [← writeEntries_indent 0 (List.cons_ne_nil e es) hat] at hbody
    exact ⟨[0], _, body, hbody, by simp [tokens, opening, opens]⟩

/-- What is written for a node alone, with the mark that ends a text that could go on. --/
theorem text_eq {o : Outline} {body : List Char} (h : Closes {} (write {} none .root o) body) :
    ∃ tail, o.text = body ++ '\n' :: tail ∧ (tail = [] ∨ tail = ['.', '.', '.', '\n']) := by
  have hline := h 0
  unfold Outline.text
  simp only
  split
  · have hmark := wrote_mark ((write {} none .root o).indent 0) ['.', '.', '.']
    have hall := (hline.trans hmark).trans (wrote_indent_of_text (n := 0) hmark.indenting)
    refine ⟨['.', '.', '.', '\n'], ?_, .inr rfl⟩
    rw [hall.text]
    simp [Page.text, lead, hline.afterBlank]
  · refine ⟨[], ?_, .inl rfl⟩
    rw [hline.text]
    simp [Page.text]

/-- The text of a node that can be read again is read as its tokens. --/
theorem ofSource_text {o : Outline} (h : IsLegible false o) (hfits : Fits none .root true o) :
    ∃ tail, (tail = [] ∨ tail = [.documentEnd]) ∧
      TokenStream.ofSource ⟨o.text, .complete⟩ = ⟨tokens .root true o ++ tail ++ [.streamEnd], none⟩ := by
  obtain ⟨cols, out, body, hwrites, htokens⟩ := writes_root o h hfits
  obtain ⟨tail, htext, htail⟩ := text_eq hwrites.closes
  have hstart : Waits (inBlock (.start o.text) [] [] none true) (.start o.text) [] [] none true
      (body ++ '\n' :: (List.replicate 0 ' ' ++ tail)) :=
    ⟨.refl _, fun _ => rfl, behind_none, rfl, htext⟩
  have hfollows : Follows [] 0 tail := by
    rcases htail with rfl | rfl
    · exact ⟨nofun, nofun, fun _ => ⟨rfl, .inl rfl⟩⟩
    · exact ⟨starts_of_mark (by decide), nofun, fun _ => ⟨rfl, .inr (by decide)⟩⟩
  obtain ⟨c, hcol, hstands⟩ := hwrites.reads hstart rfl hfollows harmless_none
  have hends : ends cols 0 ++ List.replicate (cols.dropWhile (0 < ·)).length .blockEnd =
      List.replicate cols.length .blockEnd := by
    rw [ends, List.replicate_append_replicate, ← List.length_append, List.takeWhile_append_dropWhile]
  have hrun : ∀ fuel, TokenStream.run fuel { cursor := .start o.text false } =
      TokenStream.run fuel (inBlock (.start o.text) [] [] none true) := fun _ => rfl
  have hlt : (inBlock (.start o.text) [] [] none true).cursor.rest.length < o.text.length + 1 := Nat.lt_succ_self _
  rcases htail with rfl | rfl
  · refine ⟨[], .inl rfl, (hrun _).trans ?_⟩
    rw [TokenStream.run_of_stands hstands hlt, List.nil_append, List.append_assoc out, hends, htokens, List.append_nil]
  · have hwaits := hstands.documentEnd (by decide) hcol
    have hstands' := Waits.stands_line (n := 0) hwaits nofun harmless_none
    refine ⟨[.documentEnd], .inr rfl, (hrun _).trans ?_⟩
    rw [TokenStream.run_of_stands hstands' hlt, List.nil_append, List.append_assoc out, hends, htokens]
    simp [ends]

end Outline

end Retag.Markup

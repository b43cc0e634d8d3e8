import Retag.Proofs.Markup.Token.Block
import Retag.Proofs.Markup.Token.Double
import Retag.Proofs.Markup.Token.Single

/-! Pieces of a text and the tokens that they are read as. A closed piece shows its own end; any other is read as a
    simple key if a colon follows, or with the line end behind it. -/

namespace Retag.Markup.Scanner

/-- What may follow a property of a node. --/
def endsProperty (x : Char) : Bool :=
  x == ' ' || x == '\n'

theorem endsProperty_cases {x : Char} (hx : endsProperty x = true) : x = ' ' ∨ x = '\n' := by
  simpa only [endsProperty, Bool.or_eq_true, beq_iff_eq] using hx

/-- What may follow a piece that shows its own end. --/
def endsContent (x : Char) : Bool :=
  isGap x || x == ':'

/-- What may follow the line of a node: text in a column of an open collection or at the start of a line. --/
structure Follows (cols : List Nat) (m : Nat) (text : List Char) : Prop where
  starts : Starts text
  column : ∀ i, cols.head? = some i → m ≤ i
  alone : cols = [] → m = 0 ∧ (text = [] ∨ atSeparator text = true)

/-- All open collections are in columns before a given one. --/
def Deeper (cols : List Nat) (n : Nat) : Prop :=
  ∀ i, cols.head? = some i → i < n

/-- A piece that is read in the same way before every character of a class. --/
structure Closed (stop : Char → Bool) (w : List Char) (out : List Token) : Prop where
  ne_nil : w ≠ []
  starts : Starts w
  reads : ∀ {s c ts cols k a x tail}, Stands s c ts cols k a (w ++ x :: tail) → stop x = true →
    Spared (c.advance w.length) (noted a k c ts cols) →
    Waits s (c.advance w.length) (ts ++ out) cols (noted a k c ts cols) false (x :: tail)

/-- A piece that is read as a simple key, up to the colon behind it. --/
structure ReadsKey (w : List Char) (out : List Token) : Prop where
  ne_nil : w ≠ []
  starts : Starts w
  reads : ∀ {s c ts cols k a x tail}, Stands s c ts cols k a (w ++ ':' :: x :: tail) → isGap x = true →
    (∀ i, cols.head? = some i → i ≤ c.column) → Spared (c.advance w.length) (noted a k c ts cols) →
    Waits s (c.advance w.length) (ts ++ out) cols (noted a k c ts cols) false (':' :: x :: tail)

/-- A piece that is read with the line end behind it, and with the ends of collections that come next. --/
structure ReadsLine (cols : List Nat) (w : List Char) (out : List Token) : Prop where
  ne_nil : w ≠ []
  starts : Starts w
  reads : ∀ {s c ts k a m text}, Stands s c ts cols k a (w ++ '\n' :: (List.replicate m ' ' ++ text)) →
    Deeper cols c.column → Follows cols m text → Harmless c k →
    ∃ c', c'.column = m ∧ Stands s c' (ts ++ out ++ ends cols m) (cols.dropWhile (m < ·)) none true text

variable {s : Scanner} {c : Cursor} {ts out out' : List Token} {cols : List Nat} {k : Option Candidate} {a : Bool}
  {w v bs tail text : List Char} {n m : Nat} {x : Char}

/-! ### Composition -/

theorem Deeper.harmless_noted (h : Deeper cols c.column) (hk : Harmless c k) (ts : List Token) (a : Bool) :
    Harmless c (noted a k c ts cols) := by
  unfold noted
  split
  · rintro x ⟨⟩
    refine ⟨?_, Nat.le_refl _⟩
    cases hcols : cols.head? with
    | none => simp [here, hcols]
    | some i =>
      have := h i hcols
      have hne : i ≠ c.column := by omega
      simp [here, hcols, hne]
  · exact hk

theorem Deeper.le (h : Deeper cols n) : ∀ i, cols.head? = some i → i ≤ n :=
  fun i hi => Nat.le_of_lt (h i hi)

theorem Closed.property (h : Closed endsContent w out) : Closed endsProperty w out := by
  refine ⟨h.ne_nil, h.starts, fun hs hx hk => h.reads hs ?_ hk⟩
  rcases endsProperty_cases hx with rfl | rfl <;> decide

theorem Closed.readsKey (h : Closed endsContent w out) : ReadsKey w out :=
  ⟨h.ne_nil, h.starts, fun hs _ _ hk => h.reads hs (by decide) hk⟩

theorem Closed.readsLine (h : Closed endsProperty w out) (cols : List Nat) : ReadsLine cols w out := by
  refine ⟨h.ne_nil, h.starts, fun {s c ts k a m text} hs hcols hfollows hk => ?_⟩
  have hk' := hcols.harmless_noted hk ts a
  have hw := h.reads hs (by decide) (hk'.spared _)
  exact ⟨_, by rw [Cursor.advance_line hw.rest], hw.stands_line hfollows.starts (hk'.advance _)⟩

/-- Behind a closed piece and a space stands the next one. --/
theorem Closed.stands (h : Closed endsProperty w out) (hw : ∀ x ∈ w, isInline x = true)
    (hs : Stands s c ts cols k a (w ++ ' ' :: bs)) (hb : Starts bs) (hcols : ∀ i, cols.head? = some i → i ≤ c.column)
    (hk : Spared (c.advance (w.length + 1)) (noted a k c ts cols)) :
    Stands s (c.advance (w.length + 1)) (ts ++ out) cols (noted a k c ts cols) false bs ∧
      (c.advance (w.length + 1)).column = c.column + (w.length + 1) := by
  have hcol : (c.advance w.length).column = c.column + w.length := by rw [Cursor.advance_inline hs.rest hw]
  have hk' : Spared (c.advance w.length) (noted a k c ts cols) :=
    (hs.behind_noted.advance _).spared (by rwa [Cursor.advance_advance])
  have hwaits := h.reads hs (by decide) hk'
  have hstands := Waits.stands (n := 1) hwaits hb
    (fun i hi => by have := hcols i hi; omega) (by rwa [Cursor.advance_advance])
  rw [Cursor.advance_advance] at hstands
  refine ⟨hstands, ?_⟩
  rw [← Cursor.advance_advance, @Cursor.advance_spaces _ bs 1 hwaits.rest]
  simp only [hcol]
  omega

theorem Closed.before_key (h : Closed endsProperty w out) (hw : ∀ x ∈ w, isInline x = true) (h' : ReadsKey v out') :
    ReadsKey (w ++ ' ' :: v) (out ++ out') := by
  refine ⟨by simp, h.starts.append h.ne_nil _, fun {s c ts cols k a x tail} hs hx hcols hk => ?_⟩
  have hlen : (w ++ ' ' :: v).length = w.length + 1 + v.length := by
    simp only [List.length_append, List.length_cons]
    omega
  rw [hlen, ← Cursor.advance_advance] at hk ⊢
  rw [List.append_assoc, List.cons_append] at hs
  obtain ⟨hstands, hcol⟩ := h.stands hw hs (h'.starts.append h'.ne_nil _) hcols ((hs.behind_noted.advance _).spared hk)
  rw [← List.append_assoc]
  exact h'.reads hstands hx (fun i hi => by have := hcols i hi; omega) hk

/-! ### Scalars -/

theorem closed_single {n : Nat} {cs : List Char} (h : Singles n cs bs) (hn : 0 < n) :
    Closed endsContent ('\'' :: (bs ++ ['\''])) [.scalar (String.ofList cs) false] := by
  refine ⟨by simp, fun x hx => by cases hx; exact ⟨by decide, by decide, by decide⟩,
    fun {s c ts cols k a x tail} hs hx hk => ?_⟩
  have hlen : ('\'' :: (bs ++ ['\''])).length = bs.length + 2 := by simp
  have htext : '\'' :: (bs ++ ['\'']) ++ x :: tail = '\'' :: (bs ++ '\'' :: x :: tail) := by simp
  have hquote : (x :: tail).head? ≠ some '\'' := by
    rintro ⟨⟩
    cases hx
  rw [htext] at hs
  rw [hlen] at hk ⊢
  have hscan := Quoted.scan_of_singles h hn hs.rest hquote hs.cut
  exact hs.inKey (by omega) (by simp) ((token_single hs.rest).trans (quoted_inBlock hs.filter_eq_none hscan)) hk (by simp)
    (by rw [← htext, ← hlen, List.drop_left])

theorem closed_double {n : Nat} {points : List Text.Point} (h : Doubles n points bs) (hn : 0 < n) :
    Closed endsContent ('"' :: (bs ++ ['"'])) [.scalar (.ofPoints points) false] := by
  refine ⟨by simp, fun x hx => by cases hx; exact ⟨by decide, by decide, by decide⟩,
    fun {s c ts cols k a x tail} hs hx hk => ?_⟩
  have hlen : ('"' :: (bs ++ ['"'])).length = bs.length + 2 := by simp
  have htext : '"' :: (bs ++ ['"']) ++ x :: tail = '"' :: (bs ++ '"' :: x :: tail) := by simp
  rw [htext] at hs
  rw [hlen] at hk ⊢
  have hscan := Quoted.scan_of_doubles h hn hs.rest hs.cut
  exact hs.inKey (by omega) (by simp) ((token_double hs.rest).trans (quoted_inBlock hs.filter_eq_none hscan)) hk (by simp)
    (by rw [← htext, ← hlen, List.drop_left])

theorem blockColumn_le (h : ∀ i, cols.head? = some i → i ≤ n) : (inBlock c ts cols k a).blockColumn ≤ n + 1 := by
  cases cols with
  | nil => exact Nat.zero_le _
  | cons i cols => exact Nat.succ_le_succ (h i rfl)

/-- A text that can be plain is read as a simple key where a colon follows that stands apart. --/
theorem readsKey_plain {cs : List Char} (h : Style.allowsPlain cs = true) (hne : cs ≠ []) :
    ReadsKey cs [.scalar (String.ofList cs) true] := by
  have hwords := words_of_allowsPlain h hne
  refine ⟨hne, starts_of_folds h (hwords.folds 1), fun {s c ts cols k a x tail} hs hx hcols hk => ?_⟩
  have hfolds := hwords.folds (c.column + 1)
  have hends : Plain.endsWord false (':' :: x :: tail) = true := by simp [Plain.endsWord, startsWith, hx]
  have hleast : (inBlock c ts cols (k.filter (isFresh c)) a).blockColumn ≤ c.column + 1 := blockColumn_le hcols
  have hscan := Plain.scan_of_folds hfolds (Nat.succ_pos _) hleast hends (Plain.endsAt_colon hx) hs.rest hs.cut hleast
  have hcan : Plain.canStart false c.rest = true := by
    rw [hs.rest]
    exact canStart_of_folds h hfolds
  have hsep : atSeparator c.rest = false := by
    rw [hs.rest]
    exact atSeparator_of_folds (startsAsSeparator_of_allowsPlain h) hfolds
      (by rintro y ⟨⟩; exact ⟨by decide, by decide⟩)
  exact hs.inKey (List.length_pos_iff.mpr hne) (by simp)
    ((token_plain hcan hsep hs.cut).trans (plain_inBlock hs.filter_eq_none hscan)) hk (by simp) (List.drop_left ..)

/-- Its folded form is read with the line end behind it. --/
theorem readsLine_plain {cs : List Char} (h : Style.allowsPlain cs = true) (hf : Folds n cs bs) (hn : Deeper cols n)
    (hpos : 0 < n) : ReadsLine cols bs [.scalar (String.ofList cs) true] := by
  have hne : bs ≠ [] := by
    obtain ⟨w, rest, hw, rfl, -, -⟩ := hf.head
    simp [hw.ne_nil]
  refine ⟨hne, starts_of_folds h hf, fun {s c ts k a m text} hs hcols hfollows hk => ?_⟩
  have hleast : ∀ {m}, Deeper cols m → (inBlock c ts cols (k.filter (isFresh c)) a).blockColumn ≤ m := fun {m} hm => by
    cases cols with
    | nil => exact Nat.zero_le _
    | cons i cols => exact hm i rfl
  have hends : Plain.endsWord false ('\n' :: (List.replicate m ' ' ++ text)) = true :=
    Plain.endsWord_of_isGap (by decide)
  -- What follows is indented less than a scalar in this collection may be, or ends the document.
  have hdone : m < (inBlock c ts cols (k.filter (isFresh c)) a).blockColumn ∨ (m = 0 ∧ atSeparator text = true) ∨
      text = [] := by
    cases cols with
    | nil =>
      obtain ⟨rfl, h | h⟩ := hfollows.alone rfl
      · exact .inr (.inr h)
      · exact .inr (.inl ⟨rfl, h⟩)
    | cons i cols => exact .inl (Nat.lt_succ_of_le (hfollows.column i rfl))
  have hscan := Plain.scan_of_folds hf hpos (hleast hn) hends (Plain.endsAt_line hfollows.starts hdone) hs.rest hs.cut
    (Nat.le_succ_of_le (hleast hcols))
  have hcan : Plain.canStart false c.rest = true := by
    rw [hs.rest]
    exact canStart_of_folds h hf
  have hsep : atSeparator c.rest = false := by
    rw [hs.rest]
    exact atSeparator_of_folds (startsAsSeparator_of_allowsPlain h) hf
      (by rintro y ⟨⟩; exact ⟨by decide, by decide⟩)
  have hrest : (c.advance bs.length).rest = '\n' :: (List.replicate m ' ' ++ text) := by simp [hs.rest]
  have hcursor := Cursor.advance_line hrest
  rw [Cursor.advance_advance] at hcursor
  have hline : c.line < (c.advance (bs.length + (m + 1))).line := by
    rw [hcursor]
    exact Nat.lt_succ_of_le Cursor.line_le_advance
  have hcol : (c.advance (bs.length + (m + 1))).column = m := by rw [hcursor]
  have htail : (bs ++ '\n' :: (List.replicate m ' ' ++ text)).drop (bs.length + (m + 1)) = text := by
    rw [← List.drop_drop, List.drop_left]
    simp
  have hwaits := hs.inKey_line (by omega) (by simp)
    ((token_plain hcan hsep hs.cut).trans (plain_inBlock hs.filter_eq_none hscan)) (hcols.harmless_noted hk ts a) hline
    (by simp) htail
  have hstands := hwaits.stands_here hfollows.starts
  rw [hcol] at hstands
  exact ⟨_, hcol, hstands⟩

/-- A text laid out in lines is read with the line end behind it. --/
theorem readsLine_literal {cs : List Char} (h : Lines n cs bs) (hn : Deeper cols n) (hpos : 0 < n) :
    ReadsLine cols ('|' :: '\n' :: bs) [.scalar (String.ofList cs) false] := by
  refine ⟨by simp, fun x hx => by cases hx; exact ⟨by decide, by decide, by decide⟩,
    fun {s c ts k a m text} hs hcols hfollows hk => ?_⟩
  have hm : m < n := by
    cases cols with
    | nil => exact (hfollows.alone rfl).1 ▸ hpos
    | cons i cols => exact Nat.lt_of_le_of_lt (hfollows.column i rfl) (hn i rfl)
  have houter : max 1 (inBlock c ts cols none a).blockColumn ≤ n := by
    refine Nat.max_le.mpr ⟨hpos, ?_⟩
    cases cols with
    | nil => exact Nat.zero_le _
    | cons i cols => exact hn i rfl
  have hscan := Block.scan_of_lines h houter hs.rest hm hfollows.starts
  have hreads := hs.waits (by omega) (by simp) ((token_literal hs.rest).trans (blockScalar_inBlock (hk.filter _) hscan))
    spared_none (getLast?_concat_ne (by simp))
  have hrest : (c.advance (bs.length + 2)).rest = '\n' :: (List.replicate m ' ' ++ text) := by
    simp [hs.rest]
  have hcursor := Cursor.advance_line hrest
  rw [Cursor.advance_advance, show bs.length + 2 + (m + 1) = bs.length + (m + 3) by omega] at hcursor
  have hwaits : Waits s (c.advance (bs.length + (m + 3))) (ts ++ [.scalar (String.ofList cs) false]) cols none true text :=
    ⟨hreads, fun _ => rfl, behind_none, by simpa using hs.cut, by rw [hcursor]⟩
  have hstands := hwaits.stands_here hfollows.starts
  have hcol : (c.advance (bs.length + (m + 3))).column = m := by rw [hcursor]
  rw [hcol] at hstands
  exact ⟨_, hcol, hstands⟩

/-! ### Empty collections -/

/-- A scanner within one flow collection that has just been opened. --/
def inside (c : Cursor) (ts : List Token) (cols : List Nat) (k : Option Candidate) : Scanner :=
  ⟨c, ts.toArray, cols, none, [k], true⟩

theorem forgetStale_inside (hk : Spared c k) :
    (inside c ts cols k).forgetStale = .ok (inside c ts cols (k.filter (isFresh c))) := by
  have hnone : dropStale c none = .ok none := rfl
  simp [inside, forgetStale, dropStale_of_spared hk, pure_eq_ok, hnone]

/-- The mark of a collection is passed. The candidate in front of it waits on the outer level. --/
theorem Stands.reads_inside {t : Token} (h : Stands s c ts cols k a (x :: bs))
    (hx : x = '[' ∧ t = .flowSequenceStart ∨ x = '{' ∧ t = .flowMappingStart)
    (hk : Spared (c.advance 1) (noted a k c ts cols)) :
    Reads s (inside (c.advance 1) (ts ++ [t]) cols ((noted a k c ts cols).filter (isFresh (c.advance 1)))) := by
  have ht : t ≠ .streamEnd := by rcases hx with ⟨-, rfl⟩ | ⟨-, rfl⟩ <;> decide
  have hcut : (c.advance 1).cut = false := by simpa using h.cut
  have hremember : (inBlock c ts cols (k.filter (isFresh c)) a).remember =
      .ok (inBlock c ts cols (if a then some (here c ts cols) else k.filter (isFresh c)) a) :=
    remember_inBlock fun ha => by rw [h.allowed ha]; rfl
  have htoken : (inBlock c ts cols (k.filter (isFresh c)) a).token = .ok (inside (c.advance 1) (ts ++ [t]) cols
      (if a then some (here c ts cols) else k.filter (isFresh c))) := by
    unfold token
    rcases hx with ⟨rfl, rfl⟩ | ⟨rfl, rfl⟩
    all_goals
      simp only [cursor_inBlock, h.rest]
      simp [flowStart, hremember, mark_inBlock, pure_eq_ok]
      rfl
  have hcandidate : (if a then some (here c ts cols) else k.filter (isFresh c)).filter (isFresh (c.advance 1)) =
      (noted a k c ts cols).filter (isFresh (c.advance 1)) := by
    cases a with
    | true => rfl
    | false => exact h.behind.filter_filter 1
  have hspared : Spared (c.advance 1) (if a then some (here c ts cols) else k.filter (isFresh c)) := by
    cases a with
    | true => exact hk
    | false => exact Spared.filter hk _
  obtain ⟨u, hu, hsettle, hle⟩ := h.settles
  have hlt : (c.advance 1).rest.length < c.rest.length := by simp [h.rest]
  refine hu.trans (.step ?_ (by simpa [inside] using ht) (Nat.lt_of_lt_of_le hlt hle) (.refl _))
  rw [next_eq, hsettle, ok_bind, htoken, ok_bind, ← hcandidate, ← forgetStale_inside hspared]
  show ((c.advance 1).require 1 >>= _) = _
  rw [Cursor.require_of_complete hcut, ok_bind]

/-- A collection that closes at once leaves the candidate in front of it. --/
theorem reads_of_inside {t : Token} (hc : c.rest = x :: bs)
    (hx : x = ']' ∧ t = .flowSequenceEnd ∨ x = '}' ∧ t = .flowMappingEnd) (hcut : c.cut = false)
    (hk : Spared (c.advance 1) k) (hbehind : Behind c k) : Reads (inside c ts cols k)
      (inBlock (c.advance 1) (ts ++ [t]) cols (k.filter (isFresh (c.advance 1))) false) := by
  have ht : t ≠ .streamEnd := by rcases hx with ⟨-, rfl⟩ | ⟨-, rfl⟩ <;> decide
  have hstarts : Starts (x :: bs) := by
    rintro z ⟨⟩
    rcases hx with ⟨rfl, -⟩ | ⟨rfl, -⟩ <;> exact ⟨by decide, by decide, by decide⟩
  have hnext : (inside c ts cols k).toNextToken = inside c ts cols k := toNextToken_spaces (n := 0) _ hstarts hc
  have htoken : ∀ k, (inside c ts cols k).token = .ok (inBlock (c.advance 1) (ts ++ [t]) cols k false) := fun k => by
    unfold token
    rcases hx with ⟨rfl, rfl⟩ | ⟨rfl, rfl⟩
    · simp [inside, hc, flowEnd, forget, mark, moveTo, push, inBlock, pure_eq_ok]
    · simp [inside, hc, flowEnd, forget, mark, moveTo, push, inBlock, pure_eq_ok]
  refine .step ?_ (by simpa [inBlock] using ht) ?_ (.refl _)
  · rw [next_eq, settle, hnext, forgetStale_inside (hbehind.spared hk), ok_bind, pure_eq_ok, ok_bind]
    show ((inside c ts cols (k.filter (isFresh c))).token >>= _) = _
    rw [htoken, ok_bind, cursor_inBlock, Cursor.require_of_complete (by simpa using hcut), ok_bind,
      forgetStale_inBlock (hk.filter _), hbehind.filter_filter]
  · show (c.advance 1).rest.length < c.rest.length
    simp [hc]

/-- The marks of an empty collection are a closed piece. --/
theorem closed_empty {x y : Char} {t t' : Token}
    (hxy : x = '[' ∧ t = .flowSequenceStart ∧ y = ']' ∧ t' = .flowSequenceEnd ∨
      x = '{' ∧ t = .flowMappingStart ∧ y = '}' ∧ t' = .flowMappingEnd) : Closed endsContent [x, y] [t, t'] := by
  have hx : x = '[' ∧ t = .flowSequenceStart ∨ x = '{' ∧ t = .flowMappingStart :=
    hxy.imp (fun h => ⟨h.1, h.2.1⟩) fun h => ⟨h.1, h.2.1⟩
  have hy : y = ']' ∧ t' = .flowSequenceEnd ∨ y = '}' ∧ t' = .flowMappingEnd := hxy.imp (·.2.2) (·.2.2)
  refine ⟨by simp, ?_, fun {s c ts cols k a z tail} hs hz hk => ?_⟩
  · rintro z ⟨⟩
    rcases hx with ⟨rfl, -⟩ | ⟨rfl, -⟩ <;> exact ⟨by decide, by decide, by decide⟩
  have hbehind := hs.behind_noted.advance 1
  have hk' : Spared ((c.advance 1).advance 1) (noted a k c ts cols) := by rwa [Cursor.advance_advance]
  have hopen := hs.reads_inside hx (hbehind.spared hk')
  have hrest : (c.advance 1).rest = y :: z :: tail := by simp [hs.rest]
  have hclose := @reads_of_inside (c.advance 1) (ts ++ [t]) cols _ _ y t' hrest hy (by simpa using hs.cut)
    (hk'.filter (isFresh (c.advance 1))) (hbehind.filter _)
  rw [hbehind.filter_filter, Cursor.advance_advance, List.append_assoc] at hclose
  exact ⟨hopen.trans hclose, nofun, hs.behind_noted.advance 2, by simpa using hs.cut, by simp [hs.rest]⟩

/-! ### Names and tags -/

/-- A text that can be a name. --/
structure IsName (w : List Char) : Prop where
  ne_nil : w ≠ []
  all : ∀ x ∈ w, isNameChar x = true

theorem IsName.inline (h : IsName w) : ∀ x ∈ w, isInline x = true := by
  intro x hx
  have hname := h.all x hx
  cases hb : isInline x
  · simp only [isInline, isBreak, Bool.and_eq_false_iff, Bool.not_eq_false', Bool.or_eq_true, beq_iff_eq,
      bne_eq_false_iff_eq] at hb
    rcases hb with (((rfl | rfl) | rfl) | rfl) | rfl <;> cases hname
  · rfl

theorem not_isNameChar_of_endsContent (hx : endsContent x = true) : isNameChar x = false := by
  simp only [endsContent, isGap, isSpace, isBreak, Bool.or_eq_true, beq_iff_eq] at hx
  rcases hx with ((rfl | rfl) | ((rfl | rfl) | rfl) | rfl) | rfl <;> decide

theorem endsName_of_endsContent (hx : endsContent x = true) : Mark.endsName x = true := by
  simp only [endsContent, Bool.or_eq_true, beq_iff_eq] at hx
  rcases hx with hx | rfl
  · simp [Mark.endsName, hx]
  · decide

theorem name_of {y : Char} (hw : IsName w) (hc : c.rest = y :: (w ++ x :: bs)) (hx : endsContent x = true) :
    Mark.name c = .ok (String.ofList w, c.advance (w.length + 1)) := by
  have htake : c.step.rest.takeWhile isNameChar = w := by
    rw [Cursor.rest_step, hc]
    exact takeWhile_append_of hw.all (by rintro z ⟨⟩; exact not_isNameChar_of_endsContent hx)
  have hrest : (c.step.advance w.length).rest = x :: bs := by simp [hc]
  have hne : w.isEmpty = false := by simpa using hw.ne_nil
  simp only [Mark.name, htake, hrest, hne, startsWith, endsName_of_endsContent hx]
  rw [Cursor.step_eq_advance, Cursor.advance_advance, Nat.add_comm]
  rfl

/-- A name that is read becomes a token. --/
theorem readName_of {name : String} {c' : Cursor} (h : Mark.name c = .ok (name, c')) (token : String → Token) :
    (do let (name, c) ← Mark.name c; return (token name, c) : Except Fault (Token × Cursor)) = .ok (token name, c') := by
  rw [h]
  rfl

theorem starts_of_mark (hx : isGap x = false ∧ x ≠ '#' ∧ x ≠ '\uFEFF') : Starts (x :: w) := by
  rintro y ⟨⟩
  exact hx

theorem closed_alias (hw : IsName w) : Closed endsContent ('*' :: w) [.alias (String.ofList w)] := by
  refine ⟨by simp, starts_of_mark (by decide), fun {s c ts cols k a x tail} hs hx hk => ?_⟩
  have hread := readName_of (name_of hw hs.rest hx) Token.alias
  exact hs.inKey (Nat.succ_pos _) (by simp) ((token_alias hs.rest).trans (inKey_inBlock hs.filter_eq_none hread)) hk (by simp)
    (List.drop_left ..)

theorem closed_anchor (hw : IsName w) : Closed endsContent ('&' :: w) [.anchor (String.ofList w)] := by
  refine ⟨by simp, starts_of_mark (by decide), fun {s c ts cols k a x tail} hs hx hk => ?_⟩
  have hread := readName_of (name_of hw hs.rest hx) Token.anchor
  exact hs.inKey (Nat.succ_pos _) (by simp) ((token_anchor hs.rest).trans (inKey_inBlock hs.filter_eq_none hread)) hk (by simp)
    (List.drop_left ..)

/-- A text of letters is read as it stands in a tag. --/
theorem tagBody_of_letters (fuel : Nat) (hw : ∀ y ∈ w, y.isAlpha = true) (hc : c.rest = w ++ x :: bs)
    (hx : endsProperty x = true) (hf : w.length < fuel) : Mark.tagBody fuel c = .ok (w, c.advance w.length) := by
  induction w generalizing c fuel with
  | nil =>
    obtain ⟨fuel, rfl⟩ := Nat.exists_eq_add_one_of_ne_zero (Nat.ne_zero_of_lt hf)
    rw [List.nil_append] at hc
    rcases endsProperty_cases hx with rfl | rfl <;> simp [Mark.tagBody, hc, Mark.isTagChar]
  | cons y w ih =>
    obtain ⟨fuel, rfl⟩ := Nat.exists_eq_add_one_of_ne_zero (Nat.ne_zero_of_lt hf)
    have hy := hw y List.mem_cons_self
    have hpercent : (y == '%') = false := by
      rw [beq_eq_false_iff_ne]
      rintro rfl
      cases hy
    have htag : Mark.isTagChar y = true := by simp [Mark.isTagChar, Char.isAlphanum, hy]
    rw [List.cons_append] at hc
    simp only [Mark.tagBody, hc, hpercent, htag, ih fuel (fun z hz => hw z (List.mem_cons_of_mem _ hz)) (c := c.step)
      (by simp [hc]) (Nat.lt_of_succ_lt_succ hf)]
    rfl

theorem handle_of (hc : c.rest = '!' :: '!' :: bs) : Mark.handle c = .ok ("!!", c.advance 2) := by
  have hname : isNameChar '!' = false := by decide
  simp [Mark.handle, hc, List.takeWhile, hname, Cursor.step_eq_advance]

theorem tag_of (hw : ∀ y ∈ w, y.isAlpha = true) (hne : w ≠ []) (hc : c.rest = '!' :: '!' :: (w ++ x :: bs))
    (hx : endsProperty x = true) : Mark.tag c = .ok (.tag (some "!!") (String.ofList w), c.advance (w.length + 2)) := by
  have hrest : (c.advance 2).rest = w ++ x :: bs := by simp [hc]
  have hbody := tagBody_of_letters (w ++ x :: bs).length hw hrest hx (by simp)
  have hlen : ¬((c.advance 2).advance w.length).rest.length = (w ++ x :: bs).length := by
    have := List.length_pos_iff.mpr hne
    rw [Cursor.rest_advance, hrest, List.drop_left, List.length_append]
    omega
  have htext : Mark.tagText (c.advance 2) = .ok (String.ofList w, c.advance (w.length + 2)) := by
    simp only [Mark.tagText, hrest, hbody, ok_bind, hlen, if_false]
    rw [Cursor.advance_advance, Nat.add_comm]
    rfl
  have hword : (('!' :: (w ++ x :: bs)).takeWhile fun y => !isSpaceOrBreak y).contains '!' = true := by
    simp [isSpaceOrBreak, isBreak]
  have hend : Mark.atSpaceOrBreak (c.advance (w.length + 2)).rest = true := by
    rw [Nat.add_comm, ← Cursor.advance_advance, Cursor.rest_advance, hrest, List.drop_left]
    rcases endsProperty_cases hx with rfl | rfl <;> rfl
  have hgap : startsWith isGap ('!' :: (w ++ x :: bs)) = false := rfl
  unfold Mark.tag
  rw [hc, List.tail_cons]
  split
  · rename_i h
    cases h
  · simp only [hgap, hword, handle_of hc, ok_bind, htext, pure_eq_ok, hend, if_true, Bool.false_eq_true, if_false]

/-- A tag in its short form with the handle for the tags of the language. --/
theorem closed_tag (hw : ∀ y ∈ w, y.isAlpha = true) (hne : w ≠ []) :
    Closed endsProperty ('!' :: '!' :: w) [.tag (some "!!") (String.ofList w)] := by
  refine ⟨by simp, starts_of_mark (by decide), fun {s c ts cols k a x tail} hs hx hk => ?_⟩
  exact hs.inKey (Nat.succ_pos _) (by simp)
    ((token_tag hs.rest).trans (inKey_inBlock hs.filter_eq_none (tag_of hw hne hs.rest hx))) hk (by simp)
    (List.drop_left ..)

end Retag.Markup.Scanner

import Retag.Proofs.Markup.Token.Plain
import Retag.Markup.Token.Stream

/-! Reading token by token outside flow collections. A token is read in two halves: first the scanner settles on the
    start of the token, where it has closed all block collections that end before it; then it passes the token. -/

namespace Retag.Markup.Scanner

/-- A scanner outside flow collections. --/
def inBlock (c : Cursor) (ts : List Token) (cols : List Nat) (k : Option Candidate) (allowed : Bool) : Scanner :=
  ⟨c, ts.toArray, cols, k, [], allowed⟩

@[simp] theorem cursor_inBlock {c : Cursor} {ts : List Token} {cols : List Nat} {k : Option Candidate} {a : Bool} :
    (inBlock c ts cols k a).cursor = c := rfl

@[simp] theorem inFlow_inBlock {c : Cursor} {ts : List Token} {cols : List Nat} {k : Option Candidate} {a : Bool} :
    (inBlock c ts cols k a).inFlow = false := rfl

@[simp] theorem keyAllowed_inBlock {c : Cursor} {ts : List Token} {cols : List Nat} {k : Option Candidate} {a : Bool} :
    (inBlock c ts cols k a).keyAllowed = a := rfl

/-- The ends of the block collections that are indented more than a column. --/
def ends (cols : List Nat) (n : Nat) : List Token :=
  List.replicate (cols.takeWhile (n < ·)).length .blockEnd

/-- Passes to the next token and closes the collections that end before it. --/
def settle (s : Scanner) : Except Fault Scanner := do
  let s ← s.toNextToken.forgetStale
  return s.unwindTo s.cursor.column

theorem next_eq (s : Scanner) : s.next = (do
    let s ← s.settle
    let s ← s.token
    s.cursor.require 1
    s.forgetStale) := by
  unfold next settle
  cases s.toNextToken.forgetStale <;> rfl

variable {c : Cursor} {ts : List Token} {cols : List Nat} {k : Option Candidate} {a : Bool} {bs : List Char} {n m : Nat}

theorem moveTo_inBlock (c' : Cursor) : (inBlock c ts cols k a).moveTo c' = inBlock c' ts cols k a := rfl

/-! ### Candidates -/

/-- Whether a candidate may be dropped at a position or need not be. --/
def Spared (c : Cursor) (k : Option Candidate) : Prop :=
  ∀ x, k = some x → x.required = true → isFresh c x = true

theorem spared_none : Spared c none := nofun

theorem dropStale_of_spared (h : Spared c k) : dropStale c k = .ok (k.filter (isFresh c)) := by
  cases k with
  | none => rfl
  | some x =>
    simp only [dropStale, Option.filter]
    cases hf : isFresh c x
    · have hr : x.required = false := by
        cases hr : x.required
        · rfl
        · rw [h x rfl hr] at hf
          cases hf
      simp [hr]
    · rfl

theorem forgetStale_inBlock (h : Spared c k) :
    (inBlock c ts cols k a).forgetStale = .ok (inBlock c ts cols (k.filter (isFresh c)) a) := by
  simp [inBlock, forgetStale, dropStale_of_spared h, pure_eq_ok]

/-- A candidate that may be dropped on any later line. --/
def Harmless (c : Cursor) (k : Option Candidate) : Prop :=
  ∀ x, k = some x → x.required = false ∧ x.line ≤ c.line

theorem harmless_none : Harmless c none := nofun

theorem Harmless.spared (h : Harmless c k) (c' : Cursor) : Spared c' k := by
  intro x hx hr
  rw [(h x hx).1] at hr
  cases hr

theorem Harmless.advance (h : Harmless c k) (n : Nat) : Harmless (c.advance n) k :=
  fun x hx => ⟨(h x hx).1, Nat.le_trans (h x hx).2 Cursor.line_le_advance⟩

theorem Harmless.filter (h : Harmless c k) (p : Candidate → Bool) : Harmless c (k.filter p) := by
  intro x hx
  exact h x (Option.filter_eq_some_iff.mp hx).1

/-- On a later line nothing is left of it. --/
theorem Harmless.filter_eq_none (h : Harmless c k) {c' : Cursor} (hc : c.line < c'.line) :
    k.filter (isFresh c') = none := by
  rw [Option.filter_eq_none_iff]
  intro x hx
  have := (h x hx).2
  have hne : (x.line == c'.line) = false := by
    rw [beq_eq_false_iff_ne]
    omega
  simp [isFresh, hne]

/-! ### Settling -/

theorem passBlanks_spaces (s : Scanner) (fuel : Nat) (hb : Starts bs)
    (hc : s.cursor.rest = List.replicate n ' ' ++ bs) : passBlanks (fuel + 1) s = s.moveTo (s.cursor.advance n) := by
  have hspace : bs.head? ≠ some ' ' := fun h => by
    have := (hb _ h).1
    cases this
  have hrest : (s.cursor.advance n).rest = bs := by simp [hc]
  have hcomment : (s.cursor.advance n).skipComment = s.cursor.advance n := by
    unfold Cursor.skipComment
    split
    · rename_i h
      rw [hrest] at h
      exact absurd rfl (hb '#' (by rw [h]; rfl)).2.1
    · rfl
  have hbreak : (s.cursor.advance n).lineBreak? = none := Cursor.lineBreak?_eq_none fun x hx => by
    rw [hrest] at hx
    exact isBreak_of_not_isGap (hb x hx).1
  simp only [passBlanks, Cursor.skip_spaces hc hspace, hcomment, hbreak]

theorem toNextToken_spaces (s : Scanner) (hb : Starts bs) (hc : s.cursor.rest = List.replicate n ' ' ++ bs) :
    s.toNextToken = s.moveTo (s.cursor.advance n) := by
  unfold toNextToken
  split
  · rename_i _ h
    replace h := hc.symm.trans h
    cases n with
    | zero => exact absurd rfl (hb '\uFEFF' (by rw [show bs = _ from h]; rfl)).2.2
    | succ n => cases h
  · exact passBlanks_spaces s _ hb hc

theorem toNextToken_line (hb : Starts bs) (hc : c.rest = '\n' :: (List.replicate n ' ' ++ bs)) :
    (inBlock c ts cols k a).toNextToken = inBlock (c.advance (n + 1)) ts cols k true := by
  have hskip : c.skip (· == ' ') = c := Cursor.skip_none fun x hx => by
    rw [hc] at hx
    cases hx
    decide
  have hcomment : c.skipComment = c := by simp [Cursor.skipComment, hc]
  have hpass : ∀ fuel, passBlanks (fuel + 2) (inBlock c ts cols k a) =
      passBlanks (fuel + 1) (inBlock c.step ts cols k true) := fun fuel => by
    rw [passBlanks]
    simp [inBlock, hskip, hcomment, Cursor.lineBreak?_of_cons hc, inFlow]
  have hlen : c.rest.length + 1 = (n + bs.length) + 2 := by simp [hc]
  unfold toNextToken
  split
  · rename_i _ h
    cases hc.symm.trans h
  · show passBlanks (c.rest.length + 1) (inBlock c ts cols k a) = _
    rw [hlen, hpass, passBlanks_spaces (n := n) _ _ hb (by simp [hc])]
    rfl

theorem unwindTo_inBlock : (inBlock c ts cols k a).unwindTo n =
    inBlock c (ts ++ ends cols n) (cols.dropWhile (n < ·)) k a := by
  have hdrop : cols.drop (cols.takeWhile (n < ·)).length = cols.dropWhile (n < ·) := by
    have h := @List.drop_left _ (cols.takeWhile (n < ·)) (cols.dropWhile (n < ·))
    rwa [List.takeWhile_append_dropWhile] at h
  simp [inBlock, unwindTo, inFlow, ends, hdrop]

/-- Behind spaces the scanner settles on the same line. --/
theorem settle_spaces (hb : Starts bs) (hc : c.rest = List.replicate n ' ' ++ bs) (hk : Spared (c.advance n) k) :
    (inBlock c ts cols k a).settle = .ok (inBlock (c.advance n) (ts ++ ends cols (c.column + n))
      (cols.dropWhile (c.column + n < ·)) (k.filter (isFresh (c.advance n))) a) := by
  have hcol : (c.advance n).column = c.column + n := by rw [Cursor.advance_spaces hc]
  rw [settle, toNextToken_spaces _ hb hc, moveTo_inBlock, cursor_inBlock, forgetStale_inBlock hk, ok_bind, pure_eq_ok,
    unwindTo_inBlock, cursor_inBlock, hcol]

/-- Behind a line end it settles in the column of the next line's text, and no candidate is left. --/
theorem settle_line (hb : Starts bs) (hc : c.rest = '\n' :: (List.replicate n ' ' ++ bs)) (hk : Harmless c k) :
    (inBlock c ts cols k a).settle = .ok (inBlock (c.advance (n + 1)) (ts ++ ends cols n) (cols.dropWhile (n < ·))
      none true) := by
  have hcol : (c.advance (n + 1)).column = n := by rw [Cursor.advance_line hc]
  have hline : c.line < (c.advance (n + 1)).line := by
    rw [Cursor.advance_line hc]
    exact Nat.lt_succ_self _
  rw [settle, toNextToken_line hb hc, forgetStale_inBlock (hk.spared _), hk.filter_eq_none hline, ok_bind, pure_eq_ok,
    unwindTo_inBlock, cursor_inBlock, hcol]

/-! ### Operations -/

/-- Whether a block collection in a column is a new one. --/
def opens (cols : List Nat) (n : Nat) : Bool :=
  match cols with
  | [] => true
  | i :: _ => i < n

/-- The open block collections with one in a column. --/
def opened (cols : List Nat) (n : Nat) : List Nat :=
  if opens cols n then n :: cols else cols

/-- The start of a block collection, if it is a new one. --/
def opening (cols : List Nat) (n : Nat) (t : Token) : List Token :=
  if opens cols n then [t] else []

theorem push_inBlock (t : Token) : (inBlock c ts cols k a).push t = inBlock c (ts ++ [t]) cols k a := by
  simp [inBlock, push]

theorem mark_inBlock (t : Token) : (inBlock c ts cols k a).mark t n = inBlock (c.advance n) (ts ++ [t]) cols k a := by
  simp [mark, moveTo_inBlock, push_inBlock]

theorem forget_inBlock : (inBlock c ts cols none a).forget = .ok (inBlock c ts cols none a) := rfl

theorem openBlock_inBlock (t : Token) : (inBlock c ts cols k a).openBlock t =
    inBlock c (ts ++ opening cols c.column t) (opened cols c.column) k a := by
  have hopens : (inBlock c ts cols k a).opensAt c.column = opens cols c.column := rfl
  simp only [openBlock, cursor_inBlock, hopens, push_inBlock, opening, opened]
  cases opens cols c.column
  · simp
  · rfl

/-- The candidate that the position is, outside flow collections. --/
def here (c : Cursor) (ts : List Token) (cols : List Nat) : Candidate :=
  ⟨ts.length, cols.head? == some c.column, c.index, c.line, c.column⟩

theorem remember_inBlock (hk : a = true → k = none) : (inBlock c ts cols k a).remember =
    .ok (inBlock c ts cols (if a then some (here c ts cols) else k) a) := by
  cases a
  · rfl
  · rw [hk rfl]
    rfl

theorem inKey_inBlock (hk : a = true → k = none) {read : Cursor → Except Fault (Token × Cursor)} {t : Token}
    {c' : Cursor} (hread : read c = .ok (t, c')) : (inBlock c ts cols k a).inKey read =
      .ok (inBlock c' (ts ++ [t]) cols (if a then some (here c ts cols) else k) false) := by
  simp only [inKey, remember_inBlock hk, ok_bind, cursor_inBlock, hread, moveTo_inBlock, push_inBlock]
  rfl

theorem blockEntry_inBlock : (inBlock c ts cols none true).blockEntry = .ok (inBlock (c.advance 1)
    (ts ++ opening cols c.column .blockSequenceStart ++ [.blockEntry]) (opened cols c.column) none true) := by
  simp only [blockEntry, inFlow_inBlock, keyAllowed_inBlock, Bool.not_true, Bool.and_false, Bool.false_eq_true, if_false,
    openBlock_inBlock, forget_inBlock, ok_bind, mark_inBlock]
  rfl

theorem key_inBlock : (inBlock c ts cols none true).key = .ok (inBlock (c.advance 1)
    (ts ++ opening cols c.column .blockMappingStart ++ [.key]) (opened cols c.column) none true) := by
  simp only [key, inFlow_inBlock, keyAllowed_inBlock, Bool.not_true, Bool.and_false, Bool.false_eq_true, if_false,
    openBlock_inBlock, forget_inBlock, ok_bind, mark_inBlock]
  rfl

theorem value_inBlock : (inBlock c ts cols none true).value = .ok (inBlock (c.advance 1)
    (ts ++ opening cols c.column .blockMappingStart ++ [.value]) (opened cols c.column) none true) := by
  have hk : (inBlock c ts cols none true).candidate = none := rfl
  simp only [value, hk, inFlow_inBlock, keyAllowed_inBlock, Bool.not_true, Bool.and_false, Bool.false_eq_true, if_false,
    openBlock_inBlock, mark_inBlock]
  rfl

/-- A colon behind a simple key puts the mark of the key in front of it. --/
theorem value_of_candidate (x : Candidate) : (inBlock c ts cols (some x) a).value = .ok (inBlock (c.advance 1)
    (ts.take x.number ++ (opening cols x.column .blockMappingStart ++ [.key]) ++ ts.drop x.number ++ [.value])
    (opened cols x.column) none false) := by
  have hk : (inBlock c ts cols (some x) a).candidate = some x := rfl
  have hconfirm : (inBlock c ts cols (some x) a).confirm x = inBlock c
      (ts.take x.number ++ (opening cols x.column .blockMappingStart ++ [.key]) ++ ts.drop x.number)
      (opened cols x.column) none a := by
    have hopens : (inBlock c ts cols (some x) a).opensAt x.column = opens cols x.column := rfl
    have hrest : (ts.drop x.number).take (ts.length - x.number) = ts.drop x.number :=
      List.take_of_length_le (by simp)
    simp only [confirm, hopens, opening, opened]
    cases opens cols x.column <;> simp [inBlock, inFlow, hrest]
  simp only [value, hk, hconfirm, mark_inBlock]
  rfl

/-! ### Tokens -/

variable {x : Char}

theorem token_item (hc : c.rest = '-' :: x :: bs) (hx : isGap x = true) (hcut : c.cut = false) :
    (inBlock c ts cols k a).token = (inBlock c ts cols k a).blockEntry := by
  have hsep : atSeparator c.rest = false := by
    rw [hc]
    unfold atSeparator
    split
    · rename_i h
      cases h
      cases hx
    · rename_i h
      cases h
    · rfl
  unfold token
  simp only [cursor_inBlock, hc, List.tail_cons]
  cases c.column == 0 <;> simp [Cursor.separates_of_complete hcut, Cursor.require_of_complete hcut, hsep, hx, startsWith]

theorem token_key (hc : c.rest = '?' :: x :: bs) (hx : isGap x = true) (hcut : c.cut = false) :
    (inBlock c ts cols k a).token = (inBlock c ts cols k a).key := by
  unfold token
  simp [hc, Cursor.require_of_complete hcut, hx, startsWith]

theorem token_value (hc : c.rest = ':' :: x :: bs) (hx : isGap x = true) (hcut : c.cut = false) :
    (inBlock c ts cols k a).token = (inBlock c ts cols k a).value := by
  unfold token
  simp [hc, Cursor.require_of_complete hcut, hx, startsWith]

theorem token_single (hc : c.rest = '\'' :: bs) :
    (inBlock c ts cols k a).token = (inBlock c ts cols k a).quoted false := by
  unfold token
  simp [hc]

theorem token_double (hc : c.rest = '"' :: bs) :
    (inBlock c ts cols k a).token = (inBlock c ts cols k a).quoted true := by
  unfold token
  simp [hc]

theorem token_literal (hc : c.rest = '|' :: bs) :
    (inBlock c ts cols k a).token = (inBlock c ts cols k a).blockScalar false := by
  unfold token
  simp [hc]

theorem token_alias (hc : c.rest = '*' :: bs) :
    (inBlock c ts cols k a).token = (inBlock c ts cols k a).inKey fun c => do
      let (name, c) ← Mark.name c
      return (.alias name, c) := by
  unfold token
  simp [hc]

theorem token_anchor (hc : c.rest = '&' :: bs) :
    (inBlock c ts cols k a).token = (inBlock c ts cols k a).inKey fun c => do
      let (name, c) ← Mark.name c
      return (.anchor name, c) := by
  unfold token
  simp [hc]

theorem token_tag (hc : c.rest = '!' :: bs) :
    (inBlock c ts cols k a).token = (inBlock c ts cols k a).inKey Mark.tag := by
  unfold token
  simp [hc]

/-- A character that starts a plain scalar starts nothing else. --/
theorem token_plain (hcan : Plain.canStart false c.rest = true) (hsep : atSeparator c.rest = false)
    (hcut : c.cut = false) : (inBlock c ts cols k a).token = (inBlock c ts cols k a).plain := by
  obtain ⟨x, bs, hc⟩ : ∃ x bs, c.rest = x :: bs := by
    cases hc : c.rest with
    | nil =>
      rw [hc] at hcan
      cases hcan
    | cons x bs => exact ⟨x, bs, rfl⟩
  rw [hc] at hcan hsep
  have hcannot : ∀ y ∈ ['[', ']', '{', '}', ',', '*', '&', '!', '\'', '"', '%', '|', '>'],
      Plain.canStart false (y :: bs) = false := by
    simp [Plain.canStart, isGap, isSpace, isBreak]
  have hne : ∀ y ∈ ['[', ']', '{', '}', ',', '*', '&', '!', '\'', '"', '%', '|', '>'], x ≠ y := by
    rintro y hy rfl
    rw [hcannot _ hy] at hcan
    cases hcan
  simp only [List.forall_mem_cons, ne_eq] at hne
  obtain ⟨h1, h2, h3, h4, h5, h6, h7, h8, h9, h10, h11, h12, h13, -⟩ := hne
  have hapart : x = '-' ∨ x = '?' ∨ x = ':' → startsWith isGap bs = false := by
    rintro (rfl | rfl | rfl) <;> simpa [Plain.canStart, isGap, isSpace, isBreak] using hcan
  have hitem : ¬(x = '-' ∧ startsWith isGap bs = true) := fun h => by
    rw [hapart (.inl h.1)] at h
    cases h.2
  have hkey : ¬(x = '?' ∧ startsWith isGap bs = true) := fun h => by
    rw [hapart (.inr (.inl h.1))] at h
    cases h.2
  have hvalue : ¬(x = ':' ∧ startsWith isGap bs = true) := fun h => by
    rw [hapart (.inr (.inr h.1))] at h
    cases h.2
  unfold token
  simp [hc, Cursor.separates_of_complete hcut, Cursor.require_of_complete hcut, hsep, h11, h12, h13, hitem, hkey,
    hvalue, hcan]

/-- A plain scalar may pass the line end behind it; then a key may start next. --/
theorem plain_inBlock (hk : a = true → k = none) {text : List Char} {c' : Cursor} {broken : Bool}
    (hscan : Plain.scan false (inBlock c ts cols k a).blockColumn c = .ok (text, c', broken)) :
    (inBlock c ts cols k a).plain = .ok (inBlock c' (ts ++ [.scalar (String.ofList text) true]) cols
      (if a then some (here c ts cols) else k) broken) := by
  have hcolumn : ∀ {k' : Option Candidate}, (inBlock c ts cols k' a).blockColumn = (inBlock c ts cols k a).blockColumn :=
    rfl
  simp only [plain, remember_inBlock hk, ok_bind, inFlow_inBlock, hcolumn, cursor_inBlock, hscan, moveTo_inBlock,
    push_inBlock]
  rfl

theorem quoted_inBlock (hk : a = true → k = none) {double : Bool} {text : Text.Wobbly} {c' : Cursor}
    (hscan : Quoted.scan double c = .ok (text, c')) :
    (inBlock c ts cols k a).quoted double = .ok (inBlock c' (ts ++ [.scalar text false]) cols
      (if a then some (here c ts cols) else k) false) :=
  inKey_inBlock hk (by rw [hscan]; rfl)

/-- Where a text in lines starts, no key can have started. --/
theorem blockScalar_inBlock (hk : Harmless c k) {folded : Bool} {text : List Char} {c' : Cursor}
    (hscan : Block.scan folded (max 1 (inBlock c ts cols none a).blockColumn) c = .ok (text, c')) :
    (inBlock c ts cols k a).blockScalar folded =
      .ok (inBlock c' (ts ++ [.scalar (String.ofList text) false]) cols none true) := by
  have hforget : (inBlock c ts cols k a).forget = .ok (inBlock c ts cols none a) := by
    cases k with
    | none => rfl
    | some x => simp [forget, inBlock, (hk x rfl).1]
  simp only [blockScalar, hforget, ok_bind, cursor_inBlock, hscan, moveTo_inBlock, push_inBlock]
  rfl

/-! ### Runs -/

/-- Reading on token by token, not up to the end of the text. --/
inductive Reads : Scanner → Scanner → Prop where
  | refl (s : Scanner) : Reads s s
  | step {s t u : Scanner} (h : s.next = .ok t) (hend : t.tokens.back? ≠ some .streamEnd)
      (hlt : t.cursor.rest.length < s.cursor.rest.length) (hr : Reads t u) : Reads s u

variable {s r t : Scanner}

theorem Reads.trans (h : Reads s r) (h' : Reads r t) : Reads s t := by
  induction h with
  | refl => exact h'
  | step hn hend hlt _ ih => exact .step hn hend hlt (ih h')

/-- Reading on, the scanner settles on the start of a token. --/
def Settles (s r : Scanner) : Prop :=
  ∃ t, Reads s t ∧ t.settle = .ok r ∧ r.cursor.rest.length ≤ t.cursor.rest.length

theorem Settles.of_reads (h : Reads s t) (h' : Settles t r) : Settles s r := by
  obtain ⟨u, hu, hsettle, hle⟩ := h'
  exact ⟨u, h.trans hu, hsettle, hle⟩

theorem Settles.refl (h : s.settle = .ok r) (hle : r.cursor.rest.length ≤ s.cursor.rest.length) : Settles s r :=
  ⟨s, .refl s, h, hle⟩

/-! ### Where a scanner stands -/

/-- A candidate was noted before a position. --/
def Behind (c : Cursor) (k : Option Candidate) : Prop :=
  ∀ x, k = some x → x.line ≤ c.line

theorem behind_none : Behind c none := nofun

theorem Behind.advance (h : Behind c k) (n : Nat) : Behind (c.advance n) k :=
  fun x hx => Nat.le_trans (h x hx) Cursor.line_le_advance

theorem Behind.filter (h : Behind c k) (p : Candidate → Bool) : Behind c (k.filter p) :=
  fun x hx => h x (Option.filter_eq_some_iff.mp hx).1

theorem behind_here : Behind c (some (here c ts cols)) := by
  rintro x ⟨⟩
  exact Nat.le_refl _

/-- A candidate that is fresh later on was fresh all the way. --/
theorem isFresh_of_advance {x : Candidate} (hx : x.line ≤ c.line) (h : isFresh (c.advance n) x = true) :
    isFresh c x = true := by
  simp only [isFresh, Bool.and_eq_true, beq_iff_eq, decide_eq_true_eq] at h ⊢
  have hline : c.line ≤ (c.advance n).line := Cursor.line_le_advance
  have hindex : c.index ≤ (c.advance n).index := Cursor.index_le_advance
  omega

theorem Behind.filter_filter (h : Behind c k) (n : Nat) :
    (k.filter (isFresh c)).filter (isFresh (c.advance n)) = k.filter (isFresh (c.advance n)) := by
  cases k with
  | none => rfl
  | some x =>
    cases hf : isFresh (c.advance n) x
    · cases hf' : isFresh c x <;> simp [Option.filter, hf, hf']
    · simp [Option.filter, hf, isFresh_of_advance (h x rfl) hf]

theorem Behind.spared (h : Behind c k) (hk : Spared (c.advance n) k) : Spared c k :=
  fun x hx hr => isFresh_of_advance (h x hx) (hk x hx hr)

theorem Spared.filter (h : Spared c k) (p : Candidate → Bool) : Spared c (k.filter p) :=
  fun x hx => h x (Option.filter_eq_some_iff.mp hx).1

/-- Behind a token, with a candidate that is kept only as long as it is fresh. --/
structure Waits (s : Scanner) (c : Cursor) (ts : List Token) (cols : List Nat) (k : Option Candidate) (a : Bool)
    (text : List Char) : Prop where
  reads : Reads s (inBlock c ts cols (k.filter (isFresh c)) a)
  allowed : a = true → k = none
  behind : Behind c k
  cut : c.cut = false
  rest : c.rest = text

/-- At the start of a token. --/
structure Stands (s : Scanner) (c : Cursor) (ts : List Token) (cols : List Nat) (k : Option Candidate) (a : Bool)
    (text : List Char) : Prop where
  settles : Settles s (inBlock c ts cols (k.filter (isFresh c)) a)
  allowed : a = true → k = none
  behind : Behind c k
  cut : c.cut = false
  rest : c.rest = text

/-- Where a simple key may start, none is waiting. --/
theorem Stands.filter_eq_none (h : Stands s c ts cols k a text) (ha : a = true) : k.filter (isFresh c) = none := by
  rw [h.allowed ha]
  rfl

/-- Behind a token come spaces, and then a token that does not end a collection. --/
theorem Waits.stands (h : Waits s c ts cols k a (List.replicate n ' ' ++ bs)) (hb : Starts bs)
    (hcols : ∀ i, cols.head? = some i → i ≤ c.column + n) (hk : Spared (c.advance n) k) :
    Stands s (c.advance n) ts cols k a bs := by
  have hends : ends cols (c.column + n) = [] ∧ cols.dropWhile (c.column + n < ·) = cols := by
    cases cols with
    | nil => exact ⟨rfl, rfl⟩
    | cons i cols =>
      have hi : ¬c.column + n < i := by
        have := hcols i rfl
        omega
      simp [ends, hi]
  refine ⟨.of_reads h.reads (.refl ?_ ?_), h.allowed, h.behind.advance n, by simpa using h.cut, by simp [h.rest]⟩
  · rw [settle_spaces hb h.rest (hk.filter _), hends.1, hends.2, List.append_nil, h.behind.filter_filter]
  · simp

/-- Behind a token the line ends, and the next token ends the collections that are indented more. --/
theorem Waits.stands_line (h : Waits s c ts cols k a ('\n' :: (List.replicate n ' ' ++ bs))) (hb : Starts bs)
    (hk : Harmless c k) :
    Stands s (c.advance (n + 1)) (ts ++ ends cols n) (cols.dropWhile (n < ·)) none true bs := by
  refine ⟨.of_reads h.reads (.refl (settle_line hb h.rest (hk.filter _)) ?_), fun _ => rfl, behind_none,
    by simpa using h.cut, by simp [h.rest]⟩
  simp

/-- Behind a token that took the line end with it the next one ends collections as well. --/
theorem Waits.stands_here (h : Waits s c ts cols k true bs) (hb : Starts bs) :
    Stands s c (ts ++ ends cols c.column) (cols.dropWhile (c.column < ·)) none true bs := by
  obtain rfl := h.allowed rfl
  refine ⟨.of_reads h.reads (.refl ?_ (Nat.le_refl _)), fun _ => rfl, behind_none, h.cut, h.rest⟩
  exact settle_spaces (n := 0) hb h.rest spared_none

/-- The candidate behind a token that may be part of a simple key. --/
def noted (a : Bool) (k : Option Candidate) (c : Cursor) (ts : List Token) (cols : List Nat) : Option Candidate :=
  if a then some (here c ts cols) else k

theorem Stands.behind_noted (h : Stands s c ts cols k a bs) : Behind c (noted a k c ts cols) := by
  unfold noted
  split
  · exact behind_here
  · exact h.behind

/-- A token is passed. --/
theorem Stands.waits (h : Stands s c ts cols k a bs) {ts' : List Token} {cols' : List Nat} {k' : Option Candidate}
    {a' : Bool} (hn : 0 < n) (hne : bs ≠ [])
    (ht : (inBlock c ts cols (k.filter (isFresh c)) a).token = .ok (inBlock (c.advance n) ts' cols' k' a'))
    (hk : Spared (c.advance n) k') (hend : ts'.getLast? ≠ some .streamEnd) :
    Reads s (inBlock (c.advance n) ts' cols' (k'.filter (isFresh (c.advance n))) a') := by
  obtain ⟨u, hu, hsettle, hle⟩ := h.settles
  have hlt : (c.advance n).rest.length < c.rest.length := by
    have := List.length_pos_iff.mpr hne
    simp only [Cursor.rest_advance, List.length_drop, h.rest]
    omega
  refine hu.trans (.step ?_ ?_ (Nat.lt_of_lt_of_le hlt hle) (.refl _))
  · rw [next_eq, hsettle, ok_bind, ht, ok_bind, cursor_inBlock, Cursor.require_of_complete (by simpa using h.cut),
      ok_bind, forgetStale_inBlock hk]
  · simpa [inBlock] using hend

/-! ### Tokens passed -/

theorem getLast?_concat_ne {t : Token} (ht : t ≠ .streamEnd) : (ts ++ [t]).getLast? ≠ some .streamEnd := by
  simpa using ht

/-- The mark of an item is passed; a sequence opens with its first item. --/
theorem Stands.item (h : Stands s c ts cols none true ('-' :: x :: bs)) (hx : isGap x = true) :
    Waits s (c.advance 1) (ts ++ opening cols c.column .blockSequenceStart ++ [.blockEntry]) (opened cols c.column) none
      true (x :: bs) :=
  ⟨h.waits Nat.one_pos (by simp) ((token_item h.rest hx h.cut).trans blockEntry_inBlock) spared_none
    (getLast?_concat_ne (by decide)), fun _ => rfl, behind_none, by simpa using h.cut, by simp [h.rest]⟩

/-- The mark of a key is passed; a mapping opens with its first key. --/
theorem Stands.key (h : Stands s c ts cols none true ('?' :: x :: bs)) (hx : isGap x = true) :
    Waits s (c.advance 1) (ts ++ opening cols c.column .blockMappingStart ++ [.key]) (opened cols c.column) none true
      (x :: bs) :=
  ⟨h.waits Nat.one_pos (by simp) ((token_key h.rest hx h.cut).trans key_inBlock) spared_none
    (getLast?_concat_ne (by decide)), fun _ => rfl, behind_none, by simpa using h.cut, by simp [h.rest]⟩

/-- The mark of a value is passed that stands on a line of its own. --/
theorem Stands.value (h : Stands s c ts cols none true (':' :: x :: bs)) (hx : isGap x = true) :
    Waits s (c.advance 1) (ts ++ opening cols c.column .blockMappingStart ++ [.value]) (opened cols c.column) none true
      (x :: bs) :=
  ⟨h.waits Nat.one_pos (by simp) ((token_value h.rest hx h.cut).trans value_inBlock) spared_none
    (getLast?_concat_ne (by decide)), fun _ => rfl, behind_none, by simpa using h.cut, by simp [h.rest]⟩

/-- The colon is passed behind a simple key, which started at a candidate. --/
theorem Waits.value {y : Candidate} (h : Waits s c ts cols (some y) a (':' :: x :: bs)) (hx : isGap x = true)
    (hy : isFresh c y = true) (hcols : ∀ i, cols.head? = some i → i ≤ c.column) :
    Waits s (c.advance 1)
      (ts.take y.number ++ (opening cols y.column .blockMappingStart ++ [.key]) ++ ts.drop y.number ++ [.value])
      (opened cols y.column) none false (x :: bs) := by
  have hspared : Spared c (some y) := by
    rintro z ⟨⟩ _
    exact hy
  have hs : Stands s c ts cols (some y) a (':' :: x :: bs) := Waits.stands (n := 0) h
    (fun z hz => by cases hz; exact ⟨by decide, by decide, by decide⟩) hcols hspared
  have hfilter : (some y).filter (isFresh c) = some y := by simp [hy]
  have ht := (token_value h.rest hx h.cut).trans (@value_of_candidate c ts cols a y)
  rw [← hfilter] at ht
  exact ⟨hs.waits Nat.one_pos (by simp) ht spared_none (getLast?_concat_ne (by decide)), fun ha => absurd ha (by decide),
    behind_none, by simpa using h.cut, by simp [h.rest]⟩

/-- A token is passed that may be part of a simple key. --/
theorem Stands.passes {t : Token} {a' : Bool} (h : Stands s c ts cols k a bs) (hn : 0 < n) (hne : bs ≠ [])
    (ht : (inBlock c ts cols (k.filter (isFresh c)) a).token = .ok (inBlock (c.advance n) (ts ++ [t]) cols
      (if a then some (here c ts cols) else k.filter (isFresh c)) a'))
    (hk : Spared (c.advance n) (noted a k c ts cols)) (hend : t ≠ .streamEnd) :
    Reads s (inBlock (c.advance n) (ts ++ [t]) cols ((noted a k c ts cols).filter (isFresh (c.advance n))) a') := by
  cases a with
  | true => exact h.waits hn hne ht hk (getLast?_concat_ne hend)
  | false =>
    have := h.waits hn hne ht (hk.filter _) (getLast?_concat_ne hend)
    rwa [if_neg Bool.false_ne_true, h.behind.filter_filter] at this

theorem Stands.inKey {tail : List Char} {t : Token} (h : Stands s c ts cols k a bs) (hn : 0 < n) (hne : bs ≠ [])
    (ht : (inBlock c ts cols (k.filter (isFresh c)) a).token = .ok (inBlock (c.advance n) (ts ++ [t]) cols
      (if a then some (here c ts cols) else k.filter (isFresh c)) false))
    (hk : Spared (c.advance n) (noted a k c ts cols)) (hend : t ≠ .streamEnd) (htail : bs.drop n = tail) :
    Waits s (c.advance n) (ts ++ [t]) cols (noted a k c ts cols) false tail :=
  ⟨h.passes hn hne ht hk hend, nofun, h.behind_noted.advance n, by simpa using h.cut, by simp [h.rest, htail]⟩

/-- A token is passed together with the end of its line. --/
theorem Stands.inKey_line {tail : List Char} {t : Token} (h : Stands s c ts cols k a bs) (hn : 0 < n) (hne : bs ≠ [])
    (ht : (inBlock c ts cols (k.filter (isFresh c)) a).token = .ok (inBlock (c.advance n) (ts ++ [t]) cols
      (if a then some (here c ts cols) else k.filter (isFresh c)) true))
    (hk : Harmless c (noted a k c ts cols)) (hline : c.line < (c.advance n).line) (hend : t ≠ .streamEnd)
    (htail : bs.drop n = tail) : Waits s (c.advance n) (ts ++ [t]) cols none true tail := by
  have hreads := h.passes hn hne ht (hk.spared _) hend
  rw [hk.filter_eq_none hline] at hreads
  exact ⟨hreads, fun _ => rfl, behind_none, by simpa using h.cut, by simp [h.rest, htail]⟩

/-! ### The end of the text -/

theorem unwindAll_inBlock : (inBlock c ts cols k a).unwindAll =
    inBlock c (ts ++ List.replicate cols.length .blockEnd) [] k a := by
  simp [unwindAll, inBlock, inFlow]

theorem separator_inBlock (t : Token) : (inBlock c ts cols none a).separator t =
    .ok (inBlock (c.advance 3) (ts ++ List.replicate cols.length .blockEnd ++ [t]) [] none false) := by
  simp only [separator, unwindAll_inBlock, forget_inBlock, ok_bind, mark_inBlock]
  rfl

/-- A mark that ends a document closes all collections. --/
theorem Stands.documentEnd (h : Stands s c ts cols none true ('.' :: '.' :: '.' :: x :: bs)) (hx : isGap x = true)
    (hcol : c.column = 0) : Waits s (c.advance 3) (ts ++ List.replicate cols.length .blockEnd ++ [.documentEnd]) [] none
      false (x :: bs) := by
  have hsep : c.separates = .ok true := by
    rw [Cursor.separates_of_complete h.cut, h.rest]
    simp [atSeparator, startsWith, hx]
  have htoken : (inBlock c ts cols none true).token = .ok (inBlock (c.advance 3)
      (ts ++ List.replicate cols.length .blockEnd ++ [.documentEnd]) [] none false) := by
    unfold token
    simp [h.rest, hcol, hsep, separator_inBlock]
  exact ⟨h.waits (by decide) (by simp) htoken spared_none (getLast?_concat_ne (by decide)), fun ha => absurd ha (by decide),
    behind_none, by simpa using h.cut, by simp [h.rest]⟩

/-- At the end of the text the last token is read. --/
theorem next_of_end (hc : c.rest = []) (hcut : c.cut = false) {t : Scanner}
    (ht : t.settle = .ok (inBlock c ts cols none a)) :
    t.next = .ok (inBlock c (ts ++ List.replicate cols.length .blockEnd ++ [.streamEnd]) [] none false) := by
  have htoken : (inBlock c ts cols none a).token =
      .ok (inBlock c (ts ++ List.replicate cols.length .blockEnd ++ [.streamEnd]) [] none false) := by
    unfold token
    simp only [cursor_inBlock, hc, hcut, streamEnd, unwindAll_inBlock, forget_inBlock]
    simp only [ok_bind, push_inBlock]
    rfl
  rw [next_eq, ht, ok_bind, htoken, ok_bind, cursor_inBlock, Cursor.require_of_complete hcut, ok_bind,
    forgetStale_inBlock spared_none]
  rfl

end Retag.Markup.Scanner

namespace Retag.Markup.TokenStream

open Scanner

/-- A run reads on as the scanner does. --/
theorem run_of_reads {s t : Scanner} (h : Reads s t) {fuel : Nat} (hf : s.cursor.rest.length < fuel) :
    ∃ fuel', t.cursor.rest.length < fuel' ∧ run fuel s = run fuel' t := by
  induction h generalizing fuel with
  | refl => exact ⟨fuel, hf, rfl⟩
  | @step s t u hn hend hlt _ ih =>
    obtain ⟨fuel, rfl⟩ := Nat.exists_eq_add_one_of_ne_zero (Nat.ne_zero_of_lt hf)
    obtain ⟨fuel', hf', heq⟩ := @ih fuel (by omega)
    refine ⟨fuel', hf', ?_⟩
    rw [run, hn, ← heq]
    simp only [beq_iff_eq, hend, if_false]

/-- A run that gets to the end of the text gives the tokens. --/
theorem run_of_stands {s : Scanner} {c : Cursor} {ts : List Token} {cols : List Nat} {a : Bool}
    (h : Stands s c ts cols none a []) {fuel : Nat} (hf : s.cursor.rest.length < fuel) :
    run fuel s = ⟨ts ++ List.replicate cols.length .blockEnd ++ [.streamEnd], none⟩ := by
  obtain ⟨t, hreads, hsettle, -⟩ := h.settles
  obtain ⟨fuel', hf', heq⟩ := run_of_reads hreads hf
  obtain ⟨fuel', rfl⟩ := Nat.exists_eq_add_one_of_ne_zero (Nat.ne_zero_of_lt hf')
  rw [heq, run, next_of_end h.rest h.cut hsettle]
  simp [inBlock]

end Retag.Markup.TokenStream

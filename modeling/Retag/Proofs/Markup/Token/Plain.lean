import Mathlib.Data.List.TakeWhile
import Retag.Markup.Layout
import Retag.Markup.Token.Plain
import Retag.Proofs.Markup.Cursor
import Retag.Proofs.Markup.Page
import Retag.Proofs.Results

/-! Plain scalars, written and read. A text that can be plain is a row of words with spaces between them; it is
    written with some of the single spaces replaced by the start of a new line, and read with every such start taken
    for a space. -/

namespace Retag.Markup

/-! ### Words -/

/-- A word of a plain scalar: nothing in it is a blank, and no colon in it stands apart. --/
structure IsWord (w : List Char) : Prop where
  ne_nil : w ≠ []
  inline : ∀ x ∈ w, isGap x = false ∧ x ≠ '\uFEFF'
  unmarked : Style.hasValueMark w = false

/-- A row of words with spaces between them. No word but the first starts with a number sign. --/
inductive Words : List Char → Prop where
  | last {w : List Char} (hw : IsWord w) : Words w
  | more {w cs : List Char} (k : Nat) (hw : IsWord w) (h : Words cs) (hcs : cs.head? ≠ some '#') :
      Words (w ++ List.replicate (k + 1) ' ' ++ cs)

/-- A row of words, and the same with some single spaces replaced by starts of new lines at a column. --/
inductive Folds (n : Nat) : List Char → List Char → Prop where
  | last {w : List Char} (hw : IsWord w) : Folds n w w
  | gap {w cs body : List Char} (k : Nat) (hw : IsWord w) (h : Folds n cs body) (hcs : cs.head? ≠ some '#') :
      Folds n (w ++ List.replicate (k + 1) ' ' ++ cs) (w ++ List.replicate (k + 1) ' ' ++ body)
  | fold {w cs body : List Char} (hw : IsWord w) (h : Folds n cs body) (hcs : cs.head? ≠ some '#') :
      Folds n (w ++ ' ' :: cs) (w ++ '\n' :: List.replicate n ' ' ++ body)

variable {n k m indent : Nat} {w cs bs tail : List Char} {x : Char}

theorem IsWord.isInline (h : IsWord w) : ∀ x ∈ w, isInline x = true := by
  intro x hx
  obtain ⟨hgap, hmark⟩ := h.inline x hx
  simp [Markup.isInline, isBreak_of_not_isGap hgap, hmark]

theorem IsWord.ne_space (h : IsWord w) : ∀ x ∈ w, (x == ' ') = false := by
  intro x hx
  have hgap := isSpace_of_not_isGap (h.inline x hx).1
  simp only [isSpace, Bool.or_eq_false_iff] at hgap
  exact hgap.1

theorem IsWord.head? (h : IsWord w) (bs : List Char) :
    ∃ x, (w ++ bs).head? = some x ∧ isGap x = false ∧ (x == ' ') = false := by
  cases w with
  | nil => exact absurd rfl h.ne_nil
  | cons x w => exact ⟨x, rfl, (h.inline x List.mem_cons_self).1, h.ne_space x List.mem_cons_self⟩

theorem Words.head? (h : Words cs) : ∃ x, cs.head? = some x ∧ isGap x = false ∧ (x == ' ') = false := by
  cases h with
  | last hw => simpa using hw.head? []
  | more k hw _ _ => simpa using hw.head? _

/-- A row and its folded form start with the same word, behind which both have a blank or both end. --/
theorem Folds.split (h : Folds n cs bs) : ∃ w r r', IsWord w ∧ cs = w ++ r ∧ bs = w ++ r' ∧
    (r = [] ∧ r' = [] ∨ ∃ x y q q', r = x :: q ∧ r' = y :: q' ∧ isGap x = true ∧ isGap y = true) := by
  cases h with
  | last hw => exact ⟨_, [], [], hw, by simp, by simp, .inl ⟨rfl, rfl⟩⟩
  | gap k hw h _ =>
    exact ⟨_, _, _, hw, List.append_assoc .., List.append_assoc .., .inr ⟨' ', ' ', _, _,
      by rw [List.replicate_succ]; rfl, by rw [List.replicate_succ]; rfl, by decide, by decide⟩⟩
  | fold hw h _ =>
    exact ⟨_, _, _, hw, rfl, List.append_assoc .., .inr ⟨' ', '\n', _, _, rfl, rfl, by decide, by decide⟩⟩

/-- A folded row starts with a word, which is followed by a blank or is the last. --/
theorem Folds.head (h : Folds n cs bs) : ∃ w rest, IsWord w ∧ bs = w ++ rest ∧ cs.head? = w.head? ∧
    (rest = [] ∨ ∃ x rest', rest = x :: rest' ∧ isGap x = true) := by
  obtain ⟨w, r, r', hw, hcs, hbs, hr⟩ := h.split
  refine ⟨w, r', hw, hbs, ?_, hr.imp And.right fun ⟨_, y, _, q', _, hr', _, hy⟩ => ⟨y, q', hr', hy⟩⟩
  cases w with
  | nil => exact absurd rfl hw.ne_nil
  | cons x w => rw [hcs]; rfl

theorem Words.inline (h : Words cs) : ∀ x ∈ cs, isInline x = true := by
  induction h with
  | last hw => exact hw.isInline
  | more k hw _ _ ih =>
    intro x hx
    simp only [List.mem_append, List.mem_replicate] at hx
    rcases hx with (hx | ⟨-, rfl⟩) | hx
    · exact hw.isInline x hx
    · decide
    · exact ih x hx

/-- A row needs no fold. --/
theorem Words.folds (h : Words cs) (n : Nat) : Folds n cs cs := by
  induction h with
  | last hw => exact .last hw
  | more k hw _ hsharp ih => exact .gap k hw ih hsharp

/-! ### Writing -/

namespace Page

theorem run_word (hw : IsWord w) (hb : bs = [] ∨ ∃ rest, bs = ' ' :: rest) : run (w ++ bs) = w := by
  cases w with
  | nil => exact absurd rfl hw.ne_nil
  | cons c w =>
    have kind : ∀ x ∈ c :: w, (x == ' ') = false ∧ isBreak x = false :=
      fun x hx => ⟨hw.ne_space x hx, isBreak_of_not_isGap (hw.inline x hx).1⟩
    obtain ⟨hc, hc'⟩ := kind c List.mem_cons_self
    rw [List.cons_append, run, ← List.cons_append]
    refine takeWhile_append_of (fun x hx => ?_) (fun x hx => ?_)
    · obtain ⟨hx, hx'⟩ := kind x hx
      simp [hx, hx', hc, hc']
    · rcases hb with rfl | ⟨rest, rfl⟩
      · cases hx
      · cases hx
        simp [hc]

theorem run_spaces (hb : ∀ x, bs.head? = some x → (x == ' ') = false) :
    run (List.replicate (k + 1) ' ' ++ bs) = List.replicate (k + 1) ' ' := by
  rw [List.replicate_succ, List.cons_append, run, ← List.cons_append, ← List.replicate_succ]
  refine takeWhile_append_of (fun x hx => ?_) (fun x hx => ?_)
  · rw [List.eq_of_mem_replicate hx]
    rfl
  · simp [hb x hx]

theorem plainRuns_nil (p : Page) (n : Nat) (split : Bool) (fuel : Nat) : plainRuns p n split fuel [] = p := by
  cases fuel <;> rfl

/-- A word is written as it is. --/
theorem plainRuns_word (p : Page) (n : Nat) (split : Bool) (fuel : Nat) (hw : IsWord w) {b : List Char}
    (hb : b = [] ∨ ∃ rest, b = ' ' :: rest) :
    plainRuns p n split (fuel + 1) (w ++ b) = plainRuns (p.write w) n split fuel b := by
  have hsingle : w ≠ [' '] := fun heq => by
    have := hw.ne_space ' ' (by simp [heq])
    simp at this
  have hempty : w.isEmpty = false := by simpa using hw.ne_nil
  have hdrop : (w ++ b).drop w.length = b := by simp
  simp only [plainRuns, run_word hw hb, hempty, hsingle, hdrop, decide_false, Bool.false_and, Bool.false_eq_true,
    if_false]

/-- Spaces are written as they are, or a single one is given up for a new line. --/
theorem plainRuns_spaces (p : Page) (n : Nat) (split : Bool) (fuel : Nat)
    (hb : ∀ x, bs.head? = some x → (x == ' ') = false) :
    plainRuns p n split (fuel + 1) (List.replicate (k + 1) ' ' ++ bs) =
        plainRuns (p.write (List.replicate (k + 1) ' ')) n split fuel bs ∨
      (k = 0 ∧ split = true ∧
        plainRuns p n split (fuel + 1) (List.replicate (k + 1) ' ' ++ bs) =
          plainRuns (p.indent n).inText n split fuel bs) := by
  have hempty : (List.replicate (k + 1) ' ').isEmpty = false := rfl
  have hdrop : (List.replicate (k + 1) ' ' ++ bs).drop (List.replicate (k + 1) ' ').length = bs := by simp
  simp only [plainRuns, run_spaces hb, hempty, hdrop, Bool.false_eq_true, if_false]
  split
  · rename_i h
    simp only [Bool.and_eq_true, decide_eq_true_eq] at h
    have hk : k = 0 := by simpa [List.replicate_succ] using h.1.1
    exact Or.inr ⟨hk, h.2, rfl⟩
  · exact Or.inl rfl

/-- A row of words is written folded; without splitting it is written as it is. --/
theorem wrote_plainRuns (h : Words cs) (split : Bool) (fuel : Nat) (p : Page) (hf : cs.length ≤ fuel)
    (hp : p.indenting = false) (ha : p.afterBlank = false) :
    ∃ body column, Folds n cs body ∧ Wrote p (plainRuns p n split fuel cs) body column false false ∧
      (split = false → body = cs ∧ column = p.column + cs.length) := by
  have wrote : ∀ (q : Page) (bs : List Char), q.indenting = false → q.afterBlank = false →
      Wrote q (q.write bs) bs (q.column + bs.length) false false := fun q bs hi ha => ⟨rfl, rfl, ha, hi⟩
  induction h generalizing fuel p with
  | @last w hw =>
    obtain ⟨fuel, rfl⟩ : ∃ f, fuel = f + 1 := ⟨fuel - 1, by
      have := List.length_pos_iff.mpr hw.ne_nil
      omega⟩
    have hone : plainRuns p n split (fuel + 1) w = p.write w := by
      have := plainRuns_word p n split fuel hw (b := []) (Or.inl rfl)
      rwa [List.append_nil, plainRuns_nil] at this
    exact ⟨w, _, .last hw, hone ▸ wrote p w hp ha, fun _ => ⟨rfl, rfl⟩⟩
  | @more w cs k hw hcs hsharp ih =>
    have hpos := List.length_pos_iff.mpr hw.ne_nil
    simp only [List.length_append, List.length_replicate] at hf
    obtain ⟨fuel, rfl⟩ : ∃ f, fuel = f + 2 := ⟨fuel - 2, by omega⟩
    have hspace : ∀ x, cs.head? = some x → (x == ' ') = false := fun x hx => by
      obtain ⟨y, hy, -, hne⟩ := hcs.head?
      rw [hx] at hy
      cases hy
      exact hne
    -- The word comes first, then the spaces, which may be given up for a new line.
    have hword := wrote p w hp ha
    rw [List.append_assoc, plainRuns_word p n split (fuel + 1) hw (Or.inr ⟨_, by rw [List.replicate_succ]; rfl⟩)]
    rcases plainRuns_spaces (k := k) (p.write w) n split fuel hspace with hrun | ⟨rfl, hsplit, hrun⟩
    · obtain ⟨body, column, hfold, hwrote, hplain⟩ := ih fuel ((p.write w).write (List.replicate (k + 1) ' '))
        (by omega) hword.indenting hword.afterBlank
      rw [hrun, ← List.append_assoc]
      refine ⟨_, column, .gap k hw hfold hsharp,
        (hword.trans (wrote _ _ hword.indenting hword.afterBlank)).trans hwrote, fun hs => ?_⟩
      obtain ⟨rfl, hcol⟩ := hplain hs
      refine ⟨rfl, hcol.trans ?_⟩
      simp only [write, List.length_append, List.length_replicate]
      omega
    · have hbreak := wrote_indent_of_text (n := n) hword.indenting
      have hbreak' : Wrote (p.write w) ((p.write w).indent n).inText ('\n' :: List.replicate n ' ') n false false :=
        ⟨hbreak.reversed, hbreak.column, rfl, rfl⟩
      obtain ⟨body, column, hfold, hwrote, -⟩ := ih fuel ((p.write w).indent n).inText (by omega) rfl rfl
      rw [hrun]
      exact ⟨_, column, .fold hw hfold hsharp, (hword.trans hbreak').trans hwrote, fun hs => by
        rw [hs] at hsplit
        cases hsplit⟩

end Page

/-! ### Reading -/

theorem Cursor.require_of_complete {c : Cursor} (h : c.cut = false) (n : Nat) : c.require n = .ok () := by
  simp [Cursor.require, Cursor.sees_of_complete h]

theorem Cursor.separates_of_complete {c : Cursor} (h : c.cut = false) : c.separates = .ok (atSeparator c.rest) := by
  simp only [Cursor.separates, Cursor.require_of_complete h, ok_bind]
  split <;> rfl

/-- A text that starts with a space separates no documents. --/
theorem atSeparator_spaces (hn : 0 < n) : atSeparator (List.replicate n ' ' ++ bs) = false := by
  obtain ⟨n, rfl⟩ := Nat.exists_eq_add_one_of_ne_zero (Nat.ne_zero_of_lt hn)
  simp [List.replicate_succ, atSeparator]

/-- What a token may start with: no blank, no comment, and no byte order mark. --/
def Starts (cs : List Char) : Prop :=
  ∀ x, cs.head? = some x → isGap x = false ∧ x ≠ '#' ∧ x ≠ '\uFEFF'

theorem Starts.append (h : Starts cs) (hne : cs ≠ []) (tail : List Char) : Starts (cs ++ tail) := by
  cases cs with
  | nil => exact absurd rfl hne
  | cons x cs => exact h

namespace Plain

variable {c : Cursor} {fuel : Nat} {broken : Bool}

theorem endsWord_of_isGap (h : isGap x = true) : endsWord false (x :: bs) = true := by
  simp [endsWord, h]

theorem word_append (hw : ∀ x ∈ w, isGap x = false) (hu : Style.hasValueMark w = false)
    (hb : endsWord false bs = true) : word false (w ++ bs) = w := by
  induction w with
  | nil =>
    cases bs with
    | nil => rfl
    | cons b bs => simp [word, hb]
  | cons x w ih =>
    simp only [Style.hasValueMark, Bool.or_eq_false_iff, Bool.and_eq_false_iff] at hu
    have hgap := hw x List.mem_cons_self
    have hx : endsWord false (x :: w ++ bs) = false := by
      simp only [endsWord, List.cons_append, hgap, Bool.false_or, Bool.false_and, Bool.or_false]
      rw [Bool.and_eq_false_iff]
      rcases hu.1 with hcolon | hstart
      · exact Or.inl hcolon
      · refine Or.inr ?_
        cases w with
        | nil => cases hstart
        | cons y w => simpa [startsWith] using hstart
    rw [List.cons_append] at hx ⊢
    rw [word, if_neg (by simp [hx]), ih (fun y hy => hw y (List.mem_cons_of_mem _ hy)) hu.2]

theorem word_of_isWord (hw : IsWord w) (hb : endsWord false bs = true) : word false (w ++ bs) = w :=
  word_append (fun x hx => (hw.inline x hx).1) hw.unmarked hb

/-- Behind a row of words something must follow that ends a word; then the first word ends where it ends. --/
theorem word_of_folds (h : Folds n cs bs) (ht : endsWord false tail = true) :
    (word false (bs ++ tail)).isEmpty = false ∧ (bs ++ tail).head? = cs.head? := by
  obtain ⟨w, rest, hw, rfl, hhead, hrest⟩ := h.head
  have hends : endsWord false (rest ++ tail) = true := by
    rcases hrest with rfl | ⟨x, rest, rfl, hx⟩
    · exact ht
    · exact endsWord_of_isGap hx
  rw [List.append_assoc, word_of_isWord hw hends, hhead]
  refine ⟨by simpa using hw.ne_nil, ?_⟩
  cases w with
  | nil => exact absurd rfl hw.ne_nil
  | cons x w => rfl

/-- One word and the gap behind it, if more of the scalar follows. --/
theorem body_word {g : Gap} (between : List Char) (hw : IsWord w) (hc : c.rest = w ++ bs)
    (hb : endsWord false bs = true) (hcut : c.cut = false) (hg : gap (c.advance w.length) = .ok g)
    (htext : g.text = some between) (hne : between ≠ []) (hcut' : g.cursor.cut = false) (hsharp : g.cursor.rest.head? ≠ some '#')
    (hcol : indent ≤ g.cursor.column) (hword : (word false g.cursor.rest).isEmpty = false) :
    body false indent (fuel + 1) c = (body false indent fuel g.cursor).map fun r =>
      (w ++ between ++ r.1, r.2.1, r.2.2) := by
  have hsharp' : (g.cursor.rest.head? == some '#') = false := by simpa using hsharp
  have hcol' : decide (g.cursor.column < indent) = false := by simpa using hcol
  have hne' : between.isEmpty = false := by simpa using hne
  have hcut'' : (c.advance w.length).cut = false := by simpa using hcut
  simp only [body, hc, word_of_isWord hw hb, requireEnd, Cursor.require_of_complete hcut'', hg, htext,
    Cursor.require_of_complete hcut', ok_bind, hsharp', hcol', hne', hword, Bool.and_false, Bool.or_false,
    Bool.false_eq_true, if_false]
  cases body false indent fuel g.cursor with
  | error e => rfl
  | ok r => rfl

/-- The last word, if what follows ends the scalar. --/
def EndsAt (indent : Nat) (tail : List Char) (k : Nat) (broken : Bool) : Prop :=
  ∀ (w : List Char) (c : Cursor) (fuel : Nat), IsWord w → c.rest = w ++ tail → c.cut = false →
    body false indent (fuel + 1) c = .ok (w, c.advance (w.length + k), broken)

theorem gap_spaces (hc : c.rest = List.replicate (k + 1) ' ' ++ bs)
    (hb : ∀ x, bs.head? = some x → isGap x = false) (hcut : c.cut = false) :
    gap c = .ok ⟨some (List.replicate (k + 1) ' '), c.advance (k + 1), false⟩ := by
  have hhead : bs.head? ≠ some ' ' := fun h => by
    have := hb _ h
    cases this
  have htake : c.rest.takeWhile (· == ' ') = List.replicate (k + 1) ' ' := by
    rw [hc]
    refine takeWhile_append_of (fun x hx => by simp [List.eq_of_mem_replicate hx]) (fun x hx => ?_)
    cases hx' : x == ' '
    · rfl
    · rw [beq_iff_eq.mp hx'] at hx
      exact absurd hx hhead
  have hskip := Cursor.skip_spaces hc hhead
  have hrest : (c.advance (k + 1)).rest = bs := by simp [hc]
  have hbreak : (c.advance (k + 1)).lineBreak? = none := Cursor.lineBreak?_eq_none fun x hx => by
    rw [hrest] at hx
    exact isBreak_of_not_isGap (hb x hx)
  have hcut' : (c.advance (k + 1)).cut = false := by simpa using hcut
  simp only [gap, hskip, htake, Cursor.require_of_complete hcut', ok_bind, hbreak]
  rfl

/-- One line end, with the spaces that indent the next line, stands for a space. --/
theorem gap_newline (hc : c.rest = '\n' :: (List.replicate m ' ' ++ bs))
    (hb : ∀ x, bs.head? = some x → isGap x = false) (hcut : c.cut = false)
    (hsep : atSeparator (List.replicate m ' ' ++ bs) = false) : gap c = .ok ⟨some [' '], c.advance (m + 1), true⟩ := by
  have hhead : bs.head? ≠ some ' ' := fun h => by
    have := hb _ h
    cases this
  have hskip : c.skip (· == ' ') = c := Cursor.skip_none fun x hx => by
    rw [hc] at hx
    cases hx
    rfl
  have hlb := Cursor.lineBreak?_of_cons hc
  have hrest : c.step.rest = List.replicate m ' ' ++ bs := by simp [hc]
  have hcut' : c.step.cut = false := by simpa using hcut
  have hskip' := Cursor.skip_spaces hrest hhead
  have hrest' : (c.step.advance m).rest = bs := by simp [hc]
  have hbreak : (c.step.advance m).lineBreak? = none := Cursor.lineBreak?_eq_none fun x hx => by
    rw [hrest'] at hx
    exact isBreak_of_not_isGap (hb x hx)
  have hcut'' : (c.step.advance m).cut = false := by simpa using hcut
  have hblank : blankLines (List.replicate m ' ' ++ bs).length c.step = .ok (some [], c.step.advance m) := by
    cases hlen : (List.replicate m ' ' ++ bs).length with
    | zero =>
      have hnil := List.append_eq_nil_iff.mp (List.eq_nil_of_length_eq_zero hlen)
      obtain rfl : m = 0 := by simpa using hnil.1
      rfl
    | succ fuel =>
      simp only [blankLines, hskip', Cursor.require_of_complete hcut'', ok_bind, hbreak]
      rfl
  simp only [gap, hskip, Cursor.require_of_complete hcut, ok_bind, hlb, Cursor.separates_of_complete hcut', hrest,
    hsep, Bool.false_eq_true, if_false, hblank]
  simp [Cursor.step_eq_advance, Nat.add_comm]

/-- A folded row of words is read as the words with spaces between them. --/
theorem body_of_folds (h : Folds n cs bs) (hn : 0 < n) (hindent : indent ≤ n) (ht : endsWord false tail = true)
    (hend : EndsAt indent tail k broken) (hc : c.rest = bs ++ tail) (hcut : c.cut = false)
    (hcol : indent ≤ c.column + 1) (hf : bs.length ≤ fuel) :
    body false indent fuel c = .ok (cs, c.advance (bs.length + k), broken) := by
  -- Behind spaces or a line end comes a word, so the gap ends there.
  have hgapless : ∀ {cs bs : List Char}, Folds n cs bs → ∀ x, (bs ++ tail).head? = some x → isGap x = false :=
    fun {cs bs} hfold x hx => by
      obtain ⟨w, rest, hw, rfl, -, -⟩ := hfold.head
      obtain ⟨y, hy, hgap, -⟩ := hw.head? (rest ++ tail)
      rw [List.append_assoc, hy] at hx
      cases hx
      exact hgap
  induction h generalizing c fuel with
  | @last w hw =>
    obtain ⟨fuel, rfl⟩ : ∃ f, fuel = f + 1 := ⟨fuel - 1, by
      have := List.length_pos_iff.mpr hw.ne_nil
      omega⟩
    exact hend w c fuel hw hc hcut
  | @gap w cs bs j hw hfold hsharp ih =>
    have hpos := List.length_pos_iff.mpr hw.ne_nil
    simp only [List.length_append, List.length_replicate] at hf
    obtain ⟨fuel, rfl⟩ : ∃ f, fuel = f + 1 := ⟨fuel - 1, by omega⟩
    simp only [List.append_assoc] at hc
    have hinline := Cursor.advance_inline hc hw.isInline
    have hrest : (c.advance w.length).rest = List.replicate (j + 1) ' ' ++ (bs ++ tail) := by simp [hc]
    have hcut' : (c.advance w.length).cut = false := by simpa using hcut
    have hg := gap_spaces hrest (hgapless hfold) hcut'
    have hrest' : ((c.advance w.length).advance (j + 1)).rest = bs ++ tail := by simp [hc]
    obtain ⟨hword, hhead⟩ := word_of_folds hfold ht
    have hcol' : indent ≤ ((c.advance w.length).advance (j + 1)).column := by
      rw [Cursor.advance_spaces hrest, hinline]
      simp only
      omega
    rw [body_word (List.replicate (j + 1) ' ') hw hc
      (by rw [List.replicate_succ]; exact endsWord_of_isGap (by decide)) hcut hg rfl (by simp)
      (by simpa using hcut) (by rw [hrest', hhead]; exact hsharp) hcol' (by rw [hrest']; exact hword),
      ih hrest' (by simpa using hcut) (Nat.le_succ_of_le hcol') (by omega)]
    simp only [map_ok, Cursor.advance_advance, List.length_append, List.length_replicate, List.append_assoc]
    congr 4
    omega
  | @fold w cs bs hw hfold hsharp ih =>
    have hpos := List.length_pos_iff.mpr hw.ne_nil
    simp only [List.length_append, List.length_cons, List.length_replicate] at hf
    obtain ⟨fuel, rfl⟩ : ∃ f, fuel = f + 1 := ⟨fuel - 1, by omega⟩
    simp only [List.append_assoc, List.cons_append] at hc
    have hrest : (c.advance w.length).rest = '\n' :: (List.replicate n ' ' ++ (bs ++ tail)) := by simp [hc]
    have hcut' : (c.advance w.length).cut = false := by simpa using hcut
    have hg := gap_newline hrest (hgapless hfold) hcut' (atSeparator_spaces hn)
    have hrest' : ((c.advance w.length).advance (n + 1)).rest = bs ++ tail := by simp [hc]
    obtain ⟨hword, hhead⟩ := word_of_folds hfold ht
    have hcol' : indent ≤ ((c.advance w.length).advance (n + 1)).column := by
      rw [Cursor.advance_line hrest]
      exact hindent
    rw [body_word [' '] hw hc (endsWord_of_isGap (by decide)) hcut hg rfl (by simp) (by simpa using hcut)
      (by rw [hrest', hhead]; exact hsharp) hcol' (by rw [hrest']; exact hword),
      ih hrest' (by simpa using hcut) (Nat.le_succ_of_le hcol') (by omega)]
    simp only [map_ok, Cursor.advance_advance, List.length_append, List.length_cons, List.length_replicate,
      List.append_assoc, List.singleton_append]
    congr 4
    omega

/-- A colon that stands apart ends a plain scalar. --/
theorem endsAt_colon (hb : startsWith isGap bs = true) : EndsAt indent (':' :: bs) 0 false := by
  intro w c fuel hw hc hcut
  have hends : endsWord false (':' :: bs) = true := by
    cases bs with
    | nil => rfl
    | cons b bs =>
      have hgap : isGap b = true := hb
      simp [endsWord, startsWith, hgap]
  have hcut' : (c.advance w.length).cut = false := by simpa using hcut
  have hrest : (c.advance w.length).rest = ':' :: bs := by simp [hc]
  have hskip : (c.advance w.length).skip (· == ' ') = c.advance w.length := Cursor.skip_none fun x hx => by
    rw [hrest] at hx
    cases hx
    rfl
  have hbreak : (c.advance w.length).lineBreak? = none := Cursor.lineBreak?_eq_none fun x hx => by
    rw [hrest] at hx
    cases hx
    rfl
  have hg : gap (c.advance w.length) = .ok ⟨some [], c.advance w.length, false⟩ := by
    simp only [gap, hskip, Cursor.require_of_complete hcut', ok_bind, hbreak, hrest]
    rfl
  simp [body, hc, word_of_isWord hw hends, requireEnd, Cursor.require_of_complete hcut', hg]

/-- A line that is indented too little, separates documents or is missing ends a plain scalar. --/
theorem endsAt_line (hb : Starts bs) (h : m < indent ∨ (m = 0 ∧ atSeparator bs = true) ∨ bs = []) :
    EndsAt indent ('\n' :: (List.replicate m ' ' ++ bs)) (m + 1) true := by
  intro w c fuel hw hc hcut
  have hends : endsWord false ('\n' :: (List.replicate m ' ' ++ bs)) = true := endsWord_of_isGap (by decide)
  have hcut' : (c.advance w.length).cut = false := by simpa using hcut
  have hrest : (c.advance w.length).rest = '\n' :: (List.replicate m ' ' ++ bs) := by simp [hc]
  -- At a mark that separates documents the gap itself ends the scalar; else the column of the next line does.
  by_cases hsep : atSeparator (List.replicate m ' ' ++ bs) = true
  · obtain rfl : m = 0 := by
      rcases Nat.eq_zero_or_pos m with h0 | hpos
      · exact h0
      · rw [atSeparator_spaces hpos] at hsep
        cases hsep
    have hskip : (c.advance w.length).skip (· == ' ') = c.advance w.length := Cursor.skip_none fun x hx => by
      rw [hrest] at hx
      cases hx
      rfl
    have hcut'' : (c.advance w.length).step.cut = false := by simpa using hcut
    have hg : gap (c.advance w.length) = .ok ⟨none, (c.advance w.length).step, true⟩ := by
      simp only [gap, hskip, Cursor.require_of_complete hcut', ok_bind, Cursor.lineBreak?_of_cons hrest,
        Cursor.separates_of_complete hcut'', Cursor.rest_step, hrest, List.tail_cons, hsep, if_true]
      rfl
    simp only [body, hc, word_of_isWord hw hends, requireEnd, Cursor.require_of_complete hcut', ok_bind, hg]
    rw [Cursor.step_eq_advance, Cursor.advance_advance]
    rfl
  · rw [Bool.not_eq_true] at hsep
    have hg := gap_newline hrest (fun x hx => (hb x hx).1) hcut' hsep
    have hrest' : ((c.advance w.length).advance (m + 1)).rest = bs := by simp [hc]
    have hcol : ((c.advance w.length).advance (m + 1)).column = m := by rw [Cursor.advance_line hrest]
    have hcut'' : ((c.advance w.length).advance (m + 1)).cut = false := by simpa using hcut
    have hdone : m < indent ∨ bs = [] := by
      rcases h with h | ⟨rfl, h⟩ | h
      · exact Or.inl h
      · rw [List.replicate_zero, List.nil_append, h] at hsep
        cases hsep
      · exact Or.inr h
    simp only [body, hc, word_of_isWord hw hends, requireEnd, Cursor.require_of_complete hcut', ok_bind, hg,
      Cursor.require_of_complete hcut'', hcol, hrest']
    rcases hdone with hlt | rfl
    · simp [hlt]
    · simp [word]

/-- A folded row of words is read up to what ends the scalar. --/
theorem scan_of_folds (h : Folds n cs bs) (hn : 0 < n) (hindent : indent ≤ n) (ht : endsWord false tail = true)
    (hend : EndsAt indent tail k broken) (hc : c.rest = bs ++ tail) (hcut : c.cut = false)
    (hcol : indent ≤ c.column + 1) : scan false indent c = .ok (cs, c.advance (bs.length + k), broken) :=
  body_of_folds h hn hindent ht hend hc hcut hcol (by rw [hc, List.length_append]; omega)

end Plain

/-! ### Texts that can be plain -/

namespace Style

theorem hasValueMark_of_append (h : hasValueMark (cs ++ bs) = false) : hasValueMark bs = false := by
  induction cs with
  | nil => exact h
  | cons x cs ih =>
    simp only [List.cons_append, hasValueMark, Bool.or_eq_false_iff] at h
    exact ih h.2

theorem hasValueMark_of_append_gap (hb : startsWith isGap bs = true) (h : hasValueMark (cs ++ bs) = false) :
    hasValueMark cs = false := by
  induction cs with
  | nil => rfl
  | cons x cs ih =>
    simp only [List.cons_append, hasValueMark, Bool.or_eq_false_iff, Bool.and_eq_false_iff] at h ⊢
    refine ⟨h.1.imp_right fun hs => ?_, ih h.2⟩
    cases cs with
    | nil =>
      rw [List.nil_append, hb] at hs
      cases hs
    | cons y cs => exact hs

theorem hasNeighbours_of_append {α : Type} {p q : α → Bool} {as bs : List α}
    (h : hasNeighbours p q (as ++ bs) = false) :
    hasNeighbours p q bs = false := by
  induction as with
  | nil => exact h
  | cons x as ih =>
    cases has : as ++ bs with
    | nil =>
      obtain ⟨rfl, rfl⟩ := List.append_eq_nil_iff.mp has
      rfl
    | cons y rest =>
      rw [List.cons_append, has, hasNeighbours, Bool.or_eq_false_iff] at h
      exact ih (has ▸ h.2)

end Style

/-- A text is its characters before the first one of a class, and the rest. --/
theorem split_at (p : Char → Bool) (cs : List Char) :
    ∃ w rest, cs = w ++ rest ∧ (∀ x ∈ w, p x = false) ∧ (rest = [] ∨ ∃ y rest', rest = y :: rest' ∧ p y = true) := by
  refine ⟨cs.takeWhile (!p ·), cs.dropWhile (!p ·), (List.takeWhile_append_dropWhile ..).symm, fun x hx => ?_, ?_⟩
  · simpa using List.mem_takeWhile_imp hx
  · cases hd : cs.dropWhile (!p ·) with
    | nil => exact Or.inl rfl
    | cons y rest' =>
      have := List.head?_dropWhile_not (!p ·) cs
      rw [hd] at this
      exact Or.inr ⟨y, rest', rfl, by simpa using this⟩

/-- A text without marks, breaks and outer spaces. --/
structure IsRow (cs : List Char) : Prop where
  ne_nil : cs ≠ []
  gap : ∀ x ∈ cs, isGap x = true → x = ' '
  unmarked : ∀ x ∈ cs, x ≠ '\uFEFF'
  head : cs.head? ≠ some ' '
  last : cs.getLast? ≠ some ' '
  colon : Style.hasValueMark cs = false
  sharp : Style.hasNeighbours isGap (· == '#') cs = false

/-- The characters of a row up to a space are a word. --/
theorem IsRow.isWord (h : IsRow (w ++ bs)) (hne : w ≠ []) (hw : ∀ x ∈ w, (x == ' ') = false)
    (hbs : startsWith isGap bs = true) : IsWord w := by
  refine ⟨hne, fun x hx => ⟨?_, h.unmarked x (List.mem_append_left _ hx)⟩, Style.hasValueMark_of_append_gap hbs h.colon⟩
  cases hg : isGap x
  · rfl
  · have := hw x hx
    rw [h.gap x (List.mem_append_left _ hx) hg] at this
    cases this

/-- Behind the spaces of a row comes a row, not a number sign. --/
theorem IsRow.behind_spaces (h : IsRow (w ++ List.replicate (k + 1) ' ' ++ cs)) (hhead : cs.head? ≠ some ' ') :
    IsRow cs ∧ cs.head? ≠ some '#' := by
  have hmem : ∀ x ∈ cs, x ∈ w ++ List.replicate (k + 1) ' ' ++ cs := fun x hx => List.mem_append_right _ hx
  have hne : cs ≠ [] := by
    rintro rfl
    have hlast := h.last
    rw [List.append_nil, List.replicate_succ', ← List.append_assoc, List.getLast?_concat] at hlast
    exact hlast rfl
  have hlast : cs.getLast? ≠ some ' ' := fun hl => h.last (by rw [List.getLast?_append, hl]; rfl)
  refine ⟨⟨hne, fun x hx => h.gap x (hmem x hx), fun x hx => h.unmarked x (hmem x hx), hhead, hlast,
    Style.hasValueMark_of_append h.colon, Style.hasNeighbours_of_append h.sharp⟩, fun hsharp => ?_⟩
  -- A number sign behind the spaces would have a blank before it.
  cases cs with
  | nil => cases hsharp
  | cons y cs =>
    obtain rfl : y = '#' := by simpa using hsharp
    have hneighbours := h.sharp
    rw [List.replicate_succ', ← List.append_assoc, List.append_assoc] at hneighbours
    have := Style.hasNeighbours_of_append hneighbours
    simp [Style.hasNeighbours, isGap, isSpace] at this

/-- A row is a row of words. --/
theorem IsRow.words (h : IsRow cs) : Words cs := by
  induction hlen : cs.length using Nat.strongRecOn generalizing cs with
  | ind len ih =>
  obtain ⟨w, rest, rfl, hw, hrest⟩ := split_at (· == ' ') cs
  have hne : w ≠ [] := by
    rintro rfl
    rcases hrest with rfl | ⟨y, rest', rfl, hy⟩
    · exact h.ne_nil rfl
    · exact h.head (congrArg some (beq_iff_eq.mp hy))
  rcases hrest with rfl | ⟨y, rest', rfl, hy⟩
  · rw [List.append_nil]
    exact .last (h.isWord hne hw rfl)
  · obtain rfl := beq_iff_eq.mp hy
    have hword := h.isWord hne hw rfl
    obtain ⟨spaces, cs, rfl, hspaces, hcs⟩ := split_at (· != ' ') rest'
    obtain ⟨k, rfl⟩ : ∃ k, spaces = List.replicate k ' ' :=
      ⟨spaces.length, List.eq_replicate_iff.mpr ⟨rfl, fun x hx => by simpa using hspaces x hx⟩⟩
    have hshape : w ++ ' ' :: (List.replicate k ' ' ++ cs) = w ++ List.replicate (k + 1) ' ' ++ cs := by
      simp [List.replicate_succ]
    rw [hshape] at h hlen ⊢
    have hhead : cs.head? ≠ some ' ' := fun hh => by
      rcases hcs with rfl | ⟨y, cs', rfl, hy⟩
      · cases hh
      · cases hh
        cases hy
    obtain ⟨hrow, hsharp⟩ := h.behind_spaces hhead
    refine .more k hword (ih cs.length ?_ hrow rfl) hsharp
    rw [← hlen, List.length_append, List.length_append, List.length_replicate]
    omega

/-- A text that can be plain is a row of words, unless it is empty. --/
theorem words_of_allowsPlain (h : Style.allowsPlain cs = true) (hne : cs ≠ []) : Words cs := by
  simp only [Style.allowsPlain, Style.isTidy, Style.isMultiline, Style.startsOrEnds, Style.looksMarked,
    Bool.and_eq_true, Bool.not_eq_true', Bool.or_eq_false_iff, List.all_eq_true, List.any_eq_false] at h
  obtain ⟨⟨⟨⟨-, hordinary⟩, hbreak⟩, hhead, hlast⟩, ⟨⟨⟨-, hmark⟩, hcolon⟩, hsharp⟩⟩ := h
  have hspace : ∀ x ∈ cs, isGap x = true → x = ' ' := fun x hx hgap => by
    simp only [isGap, isSpace, Bool.or_eq_true, beq_iff_eq, hbreak x hx, Bool.false_eq_true, or_false] at hgap
    rcases hgap with rfl | rfl
    · rfl
    · have := hordinary _ hx
      simp [Style.isOrdinary] at this
  refine IsRow.words ⟨hne, hspace, fun x hx hm => ?_, fun hh => ?_, fun hl => ?_, ?_, hsharp⟩
  · have := hordinary x hx
    rw [hm] at this
    simp [Style.isOrdinary] at this
  · simp [hh] at hhead
  · simp [hl] at hlast
  · cases cs with
    | nil => rfl
    | cons x cs =>
      rw [List.tail_cons] at hcolon
      simp only [Style.startsAsMark, Bool.or_eq_false_iff, Bool.and_eq_false_iff] at hmark
      rw [Style.hasValueMark, hcolon, Bool.or_false, Bool.and_eq_false_iff]
      rcases hmark.2 with hx | hs
      · exact Or.inl hx.1.2
      · exact Or.inr hs

/-- A plain scalar may start where a text that can be plain starts. --/
theorem canStart_of_allowsPlain (h : Style.allowsPlain (x :: cs) = true) :
    Plain.canStart false (x :: cs ++ bs) = true := by
  simp only [Style.allowsPlain, Style.isTidy, Style.isMultiline, Style.startsOrEnds, Style.looksMarked,
    Bool.and_eq_true, Bool.not_eq_true', Bool.or_eq_false_iff] at h
  obtain ⟨⟨⟨⟨-, hordinary⟩, hbreak⟩, hhead, -⟩, ⟨⟨⟨-, hmark⟩, -⟩, -⟩⟩ := h
  rw [List.all_cons, Bool.and_eq_true] at hordinary
  rw [List.any_cons, Bool.or_eq_false_iff] at hbreak
  have hspace : (x == ' ') = false := by simpa using hhead
  have htab : (x == '\t') = false := by
    rw [beq_eq_false_iff_ne]
    rintro rfl
    simp [Style.isOrdinary] at hordinary
  have hgap : isGap x = false := by simp [isGap, isSpace, hspace, htab, hbreak.1]
  simp only [Style.startsAsMark, Bool.or_eq_false_iff, Bool.and_eq_false_iff] at hmark
  have hstart : (x == '-') = true ∨ (x == '?') = true ∨ (x == ':') = true → startsWith isGap (cs ++ bs) = false := by
    intro hx
    have hs : startsWith isGap cs = false := by
      rcases hmark.2 with ⟨⟨h1, h2⟩, h3⟩ | hs
      · rw [h1, h2, h3] at hx
        simp at hx
      · exact hs
    cases cs with
    | nil => cases hs
    | cons y cs => exact hs
  have hset : ",[]\x7b\x7d#&*!|>'\"%@\x60".toList.contains x = false := by
    have h1 := hmark.1
    simp only [List.contains_eq_mem, decide_eq_false_iff_not] at h1 ⊢
    intro hm
    apply h1
    revert hm
    simp
    grind
  simp only [List.cons_append, Plain.canStart, hgap, hset]
  by_cases h1 : (x == '-') = true
  · simp [h1, hstart (Or.inl h1)]
  · by_cases h2 : (x == '?' || x == ':') = true
    · have := hstart (Or.inr (by simpa using h2))
      simp [h1, h2, this]
    · simp [h1, h2]

/-- It may start there in the folded form as well. --/
theorem canStart_of_folds (h : Style.allowsPlain cs = true) (hf : Folds n cs bs) :
    Plain.canStart false (bs ++ tail) = true := by
  obtain ⟨w, r, r', hw, rfl, rfl, hr⟩ := hf.split
  cases w with
  | nil => exact absurd rfl hw.ne_nil
  | cons x w =>
    have hcongr : ∀ {s s' : List Char}, startsWith isGap s = startsWith isGap s' →
        Plain.canStart false (x :: s) = Plain.canStart false (x :: s') := fun {s s'} hs => by
      simp [Plain.canStart, hs]
    have hstart : Plain.canStart false (x :: (w ++ r) ++ tail) = true := canStart_of_allowsPlain h
    have heq : startsWith isGap (w ++ r' ++ tail) = startsWith isGap (w ++ r ++ tail) := by
      cases w with
      | nil =>
        rcases hr with ⟨rfl, rfl⟩ | ⟨x, y, q, q', rfl, rfl, hx, hy⟩
        · rfl
        · exact hy.trans hx.symm
      | cons y w => rfl
    exact (hcongr heq).trans hstart

theorem starts_of_folds (h : Style.allowsPlain cs = true) (hf : Folds n cs bs) : Starts bs := by
  have hcan := @canStart_of_folds n cs bs [] h hf
  obtain ⟨w, rest, hw, rfl, -, -⟩ := hf.head
  cases w with
  | nil => exact absurd rfl hw.ne_nil
  | cons x w =>
    obtain ⟨hgap, hmark⟩ := hw.inline x List.mem_cons_self
    rintro y ⟨⟩
    refine ⟨hgap, ?_, hmark⟩
    rintro rfl
    cases hcan

theorem atSeparator_of_not_starts (h : startsAsSeparator cs = false) : atSeparator cs = false := by
  unfold startsAsSeparator at h
  unfold atSeparator
  split at h
  · cases h
  · cases h
  · rename_i h1 h2
    rfl

/-- What starts as a mark that separates documents has it in its first three places. --/
theorem startsAsSeparator_of_word (hw : w ≠ []) (h : startsAsSeparator (w ++ cs) = false)
    (hb : ∀ x, bs.head? = some x → x ≠ '-' ∧ x ≠ '.') : startsAsSeparator (w ++ bs) = false := by
  match w, hw with
  | [x], _ => cases bs with
    | nil => simp [startsAsSeparator]
    | cons y bs => simp [startsAsSeparator, hb y rfl]
  | [x, y], _ => cases bs with
    | nil => simp [startsAsSeparator]
    | cons z bs => simp [startsAsSeparator, hb z rfl]
  | x :: y :: z :: w, _ =>
    rw [List.cons_append, List.cons_append, List.cons_append] at h ⊢
    unfold startsAsSeparator
    split
    · rename_i heq
      cases heq
      cases h
    · rename_i heq
      cases heq
      cases h
    · rfl

/-- A text that can be plain does not separate documents, however it goes on. --/
theorem atSeparator_of_folds (h : startsAsSeparator cs = false) (hf : Folds n cs bs)
    (ht : ∀ x, tail.head? = some x → x ≠ '-' ∧ x ≠ '.') : atSeparator (bs ++ tail) = false := by
  obtain ⟨w, r, r', hw, rfl, rfl, hr⟩ := hf.split
  rw [List.append_assoc]
  refine atSeparator_of_not_starts (startsAsSeparator_of_word hw.ne_nil h ?_)
  rcases hr with ⟨rfl, rfl⟩ | ⟨x, y, q, q', rfl, rfl, hx, hy⟩
  · exact ht
  · rintro z ⟨⟩
    constructor <;> rintro rfl <;> cases hy

theorem startsAsSeparator_of_allowsPlain (h : Style.allowsPlain cs = true) : startsAsSeparator cs = false := by
  simp only [Style.allowsPlain, Style.looksMarked, Bool.and_eq_true, Bool.not_eq_true', Bool.or_eq_false_iff] at h
  exact h.2.1.1.1

end Retag.Markup

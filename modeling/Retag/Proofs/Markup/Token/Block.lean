import Mathlib.Data.List.Basic
import Retag.Proofs.Markup.Page
import Retag.Proofs.Markup.Token.Stream
import Retag.Markup.Layout

/-! Scalars laid out in lines, written and read. A text of lines that start with no space is written without any mark of
    how it is indented, and its last line end is the one that stays. -/

namespace Retag.Markup

/-- A line that is not empty and shows how far it is indented. --/
structure IsLine (w : List Char) : Prop where
  ne_nil : w ≠ []
  inline : ∀ x ∈ w, isInline x = true
  noSpace : w.head? ≠ some ' '

/-- A text of lines, each with its end. --/
inductive AreLines : List Char → Prop where
  | last {w : List Char} (hw : IsLine w) : AreLines (w ++ ['\n'])
  | cons {w cs : List Char} (hw : IsLine w) (h : AreLines cs) : AreLines (w ++ '\n' :: cs)

/-- A text of lines, and the lines as they are written from a column on, without the last line end. --/
inductive Lines (n : Nat) : List Char → List Char → Prop where
  | last {w : List Char} (hw : IsLine w) : Lines n (w ++ ['\n']) (List.replicate n ' ' ++ w)
  | cons {w cs bs : List Char} (hw : IsLine w) (h : Lines n cs bs) :
      Lines n (w ++ '\n' :: cs) (List.replicate n ' ' ++ (w ++ '\n' :: bs))

variable {n m : Nat} {w cs bs text : List Char} {c : Cursor} {fuel : Nat}

theorem IsLine.isBreak (hw : IsLine w) : ∀ x ∈ w, isBreak x = false :=
  fun x hx => isBreak_of_isInline (hw.inline x hx)

theorem IsLine.head (hw : IsLine w) : ∃ x rest, w = x :: rest ∧ Markup.isBreak x = false ∧ x ≠ ' ' := by
  cases w with
  | nil => exact absurd rfl hw.ne_nil
  | cons x rest => exact ⟨x, rest, rfl, hw.isBreak x List.mem_cons_self, fun hx => hw.noSpace (by rw [hx]; rfl)⟩

theorem AreLines.head (h : AreLines cs) : ∃ x rest, cs = x :: rest ∧ isBreak x = false ∧ x ≠ ' ' := by
  cases h with
  | last hw =>
    obtain ⟨x, rest, rfl, hx⟩ := hw.head
    exact ⟨x, _, rfl, hx⟩
  | cons hw _ =>
    obtain ⟨x, rest, rfl, hx⟩ := hw.head
    exact ⟨x, _, rfl, hx⟩

/-! ### Writing -/

namespace Page

theorem hints_of_areLines (h : AreLines cs) : hints cs = [] := by
  have hlast : ∃ x rest, cs.reverse = '\n' :: x :: rest ∧ isBreak x = false := by
    induction h with
    | @last w hw =>
      obtain ⟨rest, x, rfl⟩ : ∃ rest x, w = rest ++ [x] :=
        ⟨w.dropLast, w.getLast hw.ne_nil, (List.dropLast_concat_getLast hw.ne_nil).symm⟩
      exact ⟨x, rest.reverse, by simp, hw.isBreak x (by simp)⟩
    | cons hw h ih =>
      obtain ⟨x, rest, hrest, hx⟩ := ih
      exact ⟨x, _, by rw [List.reverse_append, List.reverse_cons, hrest]; rfl, hx⟩
  obtain ⟨x, rest, hrest, hx⟩ := hlast
  obtain ⟨y, rest', rfl, hy, hspace⟩ := h.head
  have hbreak : isBreak '\n' = true := by decide
  simp only [hints, hrest, hbreak, hx, hy, beq_eq_false_iff_ne.mpr hspace, Bool.or_self, if_true, Bool.false_eq_true,
    if_false, List.append_nil]

variable {p : Page}

/-- A line is written behind its indentation. --/
theorem wrote_line (w : List Char) (hn : 0 < n) (hp : p.column = 0) (hi : p.indenting = true) :
    Wrote p (['\n'].foldl lineBreak ((p.indent n).writeUncounted w)) (List.replicate n ' ' ++ (w ++ ['\n'])) 0 true true := by
  have hindent := wrote_indent_of_marks hi (hp.symm ▸ hn)
  rw [hp, Nat.sub_zero] at hindent
  have htext : Wrote p ((p.indent n).writeUncounted w) (List.replicate n ' ' ++ w) n true true :=
    ⟨by rw [writeUncounted, hindent.reversed]; simp, hindent.column, hindent.afterBlank, hindent.indenting⟩
  have h := htext.trans (wrote_lineBreak _)
  rwa [List.append_assoc] at h

theorem literalRuns_line (hw : IsLine w) (hcs : ∀ x, cs.head? = some x → isBreak x = false) :
    literalRuns p n (fuel + 1) (w ++ '\n' :: cs) =
      literalRuns (['\n'].foldl lineBreak ((p.indent n).writeUncounted w)) n fuel cs := by
  have hline : (w ++ '\n' :: cs).takeWhile (fun c => !isBreak c) = w :=
    takeWhile_append_of (fun x hx => by simp [hw.isBreak x hx]) (by rintro x ⟨⟩; decide)
  have hends : ('\n' :: cs).takeWhile isBreak = ['\n'] :=
    @takeWhile_append_of isBreak ['\n'] cs (by simp [isBreak]) hcs
  have hempty : w.isEmpty = false := by simpa using hw.ne_nil
  simp only [literalRuns, hline, List.drop_left, hempty, List.isEmpty_cons, hends, List.length_singleton, List.drop_one,
    List.tail_cons, Bool.false_eq_true, if_false]

theorem wrote_literalRuns (h : AreLines cs) (hn : 0 < n) (hp : p.column = 0) (hi : p.indenting = true)
    (hf : cs.length ≤ fuel) : ∃ bs, Lines n cs bs ∧ Wrote p (literalRuns p n fuel cs) (bs ++ ['\n']) 0 true true := by
  induction h generalizing p fuel with
  | @last w hw =>
    obtain ⟨fuel, rfl⟩ : ∃ f, fuel = f + 1 := ⟨fuel - 1, by
      rw [List.length_append, List.length_singleton] at hf
      omega⟩
    have hnil : ∀ q : Page, literalRuns q n fuel [] = q := fun q => by
      cases fuel with
      | zero => rfl
      | succ fuel => rfl
    refine ⟨_, .last hw, ?_⟩
    rw [literalRuns_line hw (fun x hx => by cases hx), hnil, List.append_assoc]
    exact wrote_line w hn hp hi
  | @cons w cs hw h ih =>
    obtain ⟨fuel, rfl⟩ : ∃ f, fuel = f + 1 := ⟨fuel - 1, by
      rw [List.length_append, List.length_cons] at hf
      omega⟩
    rw [List.length_append, List.length_cons] at hf
    have hline := wrote_line w hn hp hi
    obtain ⟨bs, hlines, hwrote⟩ := @ih fuel _ hline.column hline.indenting (by omega)
    refine ⟨_, .cons hw hlines, ?_⟩
    obtain ⟨y, rest, rfl, hy, -⟩ := h.head
    rw [literalRuns_line hw (by rintro x ⟨⟩; exact hy)]
    simpa using hline.trans hwrote

/-- A text of lines is written behind the mark of a literal, which is all that is written before them. --/
theorem wrote_literal (h : AreLines cs) (hn : 0 < n) (p : Page) : ∃ bs, Lines n cs bs ∧
    Wrote p (p.literal n cs) (p.lead ++ '|' :: '\n' :: bs ++ ['\n']) 0 true true := by
  have hmark := wrote_mark p ['|']
  have hopen : Wrote p (Page.lineBreak { p.mark ['|'] with openEnded := (p.mark ['|']).openEnded || false } '\n')
      (p.lead ++ ['|', '\n']) 0 true true := by
    have h := hmark.trans (wrote_lineBreak _)
    rw [List.append_assoc] at h
    exact ⟨h.reversed, rfl, rfl, rfl⟩
  obtain ⟨bs, hlines, hwrote⟩ := wrote_literalRuns h hn hopen.column hopen.indenting (Nat.le_succ _)
  refine ⟨bs, hlines, ?_⟩
  unfold literal
  rw [hints_of_areLines h]
  simpa using hopen.trans hwrote

end Page

/-! ### Reading -/

namespace Cursor

/-- Up to a limit, spaces at the start of a line are passed. --/
theorem skipSpacesTo_of {limit : Nat} (hcol : c.column = 0) (hc : c.rest = List.replicate m ' ' ++ bs)
    (hb : bs.head? ≠ some ' ') (hm : m ≤ limit) : c.skipSpacesTo limit = c.advance m := by
  have htake : c.rest.takeWhile (· == ' ') = List.replicate m ' ' := by
    rw [hc]
    refine takeWhile_append_of (by simp) fun x hx => ?_
    rw [beq_eq_false_iff_ne]
    rintro rfl
    exact hb hx
  rw [skipSpacesTo, htake, hcol, List.length_replicate, Nat.sub_zero]
  exact congrArg c.advance (Nat.min_eq_left hm)

theorem breaksTo_of {limit : Nat} (hcol : c.column = 0) (hc : c.rest = List.replicate m ' ' ++ bs)
    (hb : ∀ x, bs.head? = some x → x ≠ ' ' ∧ isBreak x = false) (hm : m ≤ limit) :
    c.breaksTo limit = ([], c.advance m) := by
  have hspace : bs.head? ≠ some ' ' := fun hx => (hb _ hx).1 rfl
  have hbreak : (c.advance m).lineBreak? = none := lineBreak?_eq_none fun x hx => by
    rw [rest_advance, hc, List.drop_left' List.length_replicate] at hx
    exact (hb x hx).2
  rw [breaksTo, skipSpacesTo_of hcol hc hspace hm]
  cases c.rest.length with
  | zero => rfl
  | succ k => rw [breaksTo.go, hbreak]

end Cursor

namespace Block

/-- A line is read up to its end, and the spaces of the next one. --/
theorem lines_line (hw : IsLine w) (hc : c.rest = w ++ '\n' :: (List.replicate m ' ' ++ bs)) (hm : m ≤ n)
    (hb : ∀ x, bs.head? = some x → x ≠ ' ' ∧ isBreak x = false) : lines false n (fuel + 1) c =
      if m = n ∧ bs ≠ [] then
        (w ++ '\n' :: (lines false n fuel (c.advance (w.length + (m + 1)))).1,
          (lines false n fuel (c.advance (w.length + (m + 1)))).2)
      else (w, ['\n'], [], c.advance (w.length + (m + 1))) := by
  have hline : c.rest.takeWhile (fun x => !isBreak x) = w := by
    rw [hc]
    exact takeWhile_append_of (fun x hx => by simp [hw.isBreak x hx]) (by rintro x ⟨⟩; decide)
  have hrest : (c.advance w.length).rest = '\n' :: (List.replicate m ' ' ++ bs) := by simp [hc]
  have hbreak : (c.advance w.length).lineBreak? = some ('\n', (c.advance w.length).step) :=
    Cursor.lineBreak?_of_cons hrest
  have hstep := Cursor.step_of_break hrest (by decide)
  have hnext : (c.advance w.length).step.breaksTo n = ([], c.advance (w.length + (m + 1))) := by
    rw [Cursor.breaksTo_of (by rw [hstep]) (by rw [hstep]) hb hm, Cursor.step_eq_advance, Cursor.advance_advance,
      Cursor.advance_advance, Nat.add_comm 1 m]
  have hcursor := Cursor.advance_line hrest
  rw [Cursor.advance_advance] at hcursor
  have hcolumn : (c.advance (w.length + (m + 1))).column = m := by rw [hcursor]
  have hbs : (c.advance (w.length + (m + 1))).rest = bs := by rw [hcursor]
  simp only [lines, hline, hbreak, hnext, hcolumn, hbs]
  by_cases h : m = n ∧ bs ≠ []
  · rw [if_pos h, if_pos (by simpa using h)]
    simp
  · rw [if_neg h, if_neg (by simpa using h)]

/-- The lines of a text are read up to the line that is indented less. --/
theorem lines_of_lines (h : Lines n cs bs) (hm : m < n) (htext : Starts text) :
    ∃ bs' t, bs = List.replicate n ' ' ++ bs' ∧ cs = t ++ ['\n'] ∧
      (∀ x, bs'.head? = some x → x ≠ ' ' ∧ isBreak x = false) ∧ bs' ≠ [] ∧
      ∀ {c : Cursor} {fuel : Nat}, c.rest = bs' ++ '\n' :: (List.replicate m ' ' ++ text) → bs'.length < fuel →
        lines false n fuel c = (t, ['\n'], [], c.advance (bs'.length + (m + 1))) := by
  have hstart : ∀ x, text.head? = some x → x ≠ ' ' ∧ isBreak x = false := fun x hx => by
    have hgap := (htext x hx).1
    refine ⟨?_, isBreak_of_not_isGap hgap⟩
    rintro rfl
    cases hgap
  have hfirst : ∀ {w : List Char}, IsLine w → ∀ rest x, (w ++ rest).head? = some x → x ≠ ' ' ∧ isBreak x = false := by
    intro w hw rest x hx
    obtain ⟨y, rest', rfl, hy, hspace⟩ := hw.head
    cases hx
    exact ⟨hspace, hy⟩
  induction h with
  | @last w hw =>
    refine ⟨w, w, rfl, rfl, by simpa using hfirst hw [], hw.ne_nil, fun {c fuel} hc hf => ?_⟩
    obtain ⟨fuel, rfl⟩ := Nat.exists_eq_add_one_of_ne_zero (Nat.ne_zero_of_lt hf)
    rw [lines_line hw hc (Nat.le_of_lt hm) hstart, if_neg (fun h => Nat.ne_of_lt hm h.1)]
  | @cons w cs bs hw h ih =>
    obtain ⟨bs', t, rfl, rfl, hhead, hne, hlines⟩ := ih
    refine ⟨w ++ '\n' :: (List.replicate n ' ' ++ bs'), w ++ '\n' :: t, rfl, by simp, hfirst hw _, by simp,
      fun {c fuel} hc hf => ?_⟩
    obtain ⟨fuel, rfl⟩ := Nat.exists_eq_add_one_of_ne_zero (Nat.ne_zero_of_lt hf)
    simp only [List.length_append, List.length_cons, List.length_replicate] at hf
    simp only [List.append_assoc, List.cons_append] at hc
    -- The next line shows its indentation, so the spaces before it are passed up to the column and no further.
    have hhead' : ∀ x, (bs' ++ '\n' :: (List.replicate m ' ' ++ text)).head? = some x → x ≠ ' ' ∧ isBreak x = false := by
      intro x hx
      rw [List.head?_append_of_ne_nil _ hne] at hx
      exact hhead x hx
    have hrest : (c.advance (w.length + (n + 1))).rest = bs' ++ '\n' :: (List.replicate m ' ' ++ text) := by
      rw [Cursor.rest_advance, hc, ← List.drop_drop, List.drop_left]
      simp
    rw [lines_line hw hc (Nat.le_refl n) hhead', if_pos ⟨rfl, by simp⟩, hlines hrest (by omega), Cursor.advance_advance]
    simp only [List.length_append, List.length_cons, List.length_replicate]
    congr 4
    omega

/-- A text laid out in lines is read as the text, with the spaces of the line behind it. --/
theorem scan_of_lines {outer : Nat} (h : Lines n cs bs) (houter : outer ≤ n)
    (hc : c.rest = '|' :: '\n' :: (bs ++ '\n' :: (List.replicate m ' ' ++ text))) (hm : m < n)
    (htext : Starts text) : scan false outer c = .ok (cs, c.advance (bs.length + (m + 3))) := by
  obtain ⟨bs', t, rfl, rfl, hhead, hne, hlines⟩ := lines_of_lines h hm htext
  have hrest : c.step.rest = '\n' :: (List.replicate n ' ' ++ (bs' ++ '\n' :: (List.replicate m ' ' ++ text))) := by
    simp [hc]
  have hhead' : ∀ x, (bs' ++ '\n' :: (List.replicate m ' ' ++ text)).head? = some x → x ≠ ' ' ∧ isBreak x = false := by
    intro x hx
    rw [List.head?_append_of_ne_nil _ hne] at hx
    exact hhead x hx
  -- The header is empty: no marks, and the line ends at once.
  have hmarks : marks c.step = ({}, c.step) := by
    simp only [marks, hrest]
    rfl
  have hstart : startsWith isSpaceOrBreak c.step.rest = true := by rw [hrest]; rfl
  have hline : lineRest c.step = .ok c.step.step := by
    have hskip : c.step.skip (· == ' ') = c.step := Cursor.skip_none fun x hx => by
      rw [hrest] at hx
      cases hx
      decide
    have hcomment : c.step.skipComment = c.step := by
      unfold Cursor.skipComment
      rw [hrest]
      rfl
    simp only [lineRest, hskip, hcomment, hrest]
    rfl
  have hrest' : c.step.step.rest = List.replicate n ' ' ++ (bs' ++ '\n' :: (List.replicate m ' ' ++ text)) := by
    rw [Cursor.rest_step, hrest, List.tail_cons]
  have hspaces : c.step.step.skip (· == ' ') = c.step.step.advance n :=
    Cursor.skip_spaces hrest' fun hx => (hhead' _ hx).1 rfl
  have hcursor := Cursor.advance_spaces hrest'
  have hzero : c.step.step.column = 0 := by rw [Cursor.step_of_break hrest (by decide)]
  rw [hzero, Nat.zero_add] at hcursor
  -- No blank lines come first, so the spaces of the first line give the column of all lines.
  have hleading : leading (c.step.step.rest.length + 1) c.step.step = ([], n, c.step.step.advance n) := by
    have hbreak : (c.step.step.advance n).lineBreak? = none := Cursor.lineBreak?_eq_none fun x hx => by
      rw [hcursor] at hx
      exact (hhead' x hx).2
    simp only [leading, hspaces, hbreak]
    rw [hcursor]
  have hbody : lines false n ((c.step.step.advance n).rest.length + 1) (c.step.step.advance n) =
      (t, ['\n'], [], (c.step.step.advance n).advance (bs'.length + (m + 1))) := by
    refine hlines (by rw [hcursor]) ?_
    rw [hcursor, List.length_append]
    omega
  have hcolumn : (c.step.step.advance n).column = n := by rw [hcursor]
  have hnil : (c.step.step.advance n).rest.isEmpty = false := by rw [hcursor]; simp
  have hadvance : (c.step.step.advance n).advance (bs'.length + (m + 1)) =
      c.advance ((List.replicate n ' ' ++ bs').length + (m + 3)) := by
    rw [Cursor.step_eq_advance, Cursor.step_eq_advance, Cursor.advance_advance, Cursor.advance_advance,
      Cursor.advance_advance, List.length_append, List.length_replicate]
    congr 1
    omega
  simp only [scan, hmarks, hstart, if_true, hline, ok_bind, pure_eq_ok, hleading, Nat.max_eq_right houter,
    hcolumn, hnil, hbody, hadvance, List.nil_append]
  rfl

end Block

end Retag.Markup

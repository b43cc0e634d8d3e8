import Retag.Markup.Page

/-! What is written on a page. A mark stands apart from what is before it, and going to a column either moves on
    behind the marks of block collections or starts a new line. -/

namespace Retag.Markup.Page

variable {p : Page} {cs : List Char} {n : Nat}

/-- From one page to another a text was written; the column after it, and what the last of it was. --/
structure Wrote (p q : Page) (cs : List Char) (column : Nat) (afterBlank indenting : Bool) : Prop where
  reversed : q.reversed = cs.reverse ++ p.reversed
  column : q.column = column
  afterBlank : q.afterBlank = afterBlank
  indenting : q.indenting = indenting

variable {q r : Page} {bs : List Char} {column column' : Nat} {a a' i i' : Bool}

theorem Wrote.text (h : Wrote p q cs column a i) : q.text = p.text ++ cs := by
  simp [Page.text, h.reversed]

theorem Wrote.refl (p : Page) : Wrote p p [] p.column p.afterBlank p.indenting :=
  ⟨rfl, rfl, rfl, rfl⟩

theorem Wrote.trans (h : Wrote p q cs column a i) (h' : Wrote q r bs column' a' i') :
    Wrote p r (cs ++ bs) column' a' i' :=
  ⟨by rw [h'.reversed, h.reversed, List.reverse_append, List.append_assoc], h'.column, h'.afterBlank, h'.indenting⟩

theorem wrote_write (p : Page) (cs : List Char) :
    Wrote p (p.write cs) cs (p.column + cs.length) p.afterBlank p.indenting :=
  ⟨rfl, rfl, rfl, rfl⟩

theorem wrote_closeMark (p : Page) (cs : List Char) :
    Wrote p (p.closeMark cs) cs (p.column + cs.length) false false :=
  ⟨rfl, rfl, rfl, rfl⟩

/-- What stands between a mark and the text before it. --/
def lead (p : Page) : List Char :=
  if p.afterBlank then [] else [' ']

theorem wrote_mark (p : Page) (cs : List Char) :
    Wrote p (p.mark cs) (p.lead ++ cs) (p.column + (p.lead ++ cs).length) false false := by
  unfold mark lead write
  split <;> exact ⟨rfl, rfl, rfl, rfl⟩

theorem wrote_entryMark (p : Page) (c : Char) :
    Wrote p (p.entryMark c) (p.lead ++ [c]) (p.column + (p.lead ++ [c]).length) false p.indenting := by
  have h := wrote_mark p [c]
  exact ⟨h.reversed, h.column, h.afterBlank, rfl⟩

theorem wrote_lineBreak (p : Page) : Wrote p (p.lineBreak '\n') ['\n'] 0 true true :=
  ⟨rfl, rfl, rfl, rfl⟩

/-- Text before which only marks stand, or none: going to a column ahead stays on the line. --/
theorem wrote_indent_of_marks (h : p.indenting = true) (hn : p.column < n) :
    Wrote p (p.indent n) (List.replicate (n - p.column) ' ') n true true := by
  have hne : (p.column == n) = false := by
    rw [beq_eq_false_iff_ne]
    omega
  have hlt : ¬n < p.column := by omega
  unfold indent
  simp only [h, hlt, hne, Bool.not_true, decide_false, Bool.false_and, Bool.or_self, Bool.false_eq_true, if_false, hn,
    if_true]
  exact ⟨by simp [write], by simp only [write, List.length_replicate]; omega, rfl, h⟩

theorem wrote_indent_of_break (h : (!p.indenting || n < p.column || (p.column == n && !p.afterBlank)) = true) :
    Wrote p (p.indent n) ('\n' :: List.replicate n ' ') n true true := by
  unfold indent
  rw [if_pos h]
  cases n with
  | zero => exact wrote_lineBreak p
  | succ n => exact ⟨by simp [write, lineBreak], by simp [write, lineBreak], rfl, rfl⟩

/-- From a line with text on it, going to a column starts a new line. --/
theorem wrote_indent_of_text (h : p.indenting = false) :
    Wrote p (p.indent n) ('\n' :: List.replicate n ' ') n true true :=
  wrote_indent_of_break (by simp [h])

/-- From beyond the column it starts a new line as well. --/
theorem wrote_indent_of_lt (h : n < p.column) :
    Wrote p (p.indent n) ('\n' :: List.replicate n ' ') n true true :=
  wrote_indent_of_break (by simp [h])

end Retag.Markup.Page

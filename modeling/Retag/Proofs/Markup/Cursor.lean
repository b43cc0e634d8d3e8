import Retag.Markup.Cursor

/-! Passing characters: what is ahead after a number of them, and how the position has changed. -/

namespace Retag.Markup

theorem takeWhile_append_of {p : Char → Bool} {as bs : List Char} (ha : ∀ x ∈ as, p x = true)
    (hb : ∀ x, bs.head? = some x → p x = false) : (as ++ bs).takeWhile p = as := by
  rw [List.takeWhile_append_of_pos ha]
  cases bs with
  | nil => simp
  | cons b bs => simp [hb b rfl]

theorem isBreak_of_not_isGap {x : Char} (h : isGap x = false) : isBreak x = false := by
  simp only [isGap, Bool.or_eq_false_iff] at h
  exact h.2

theorem isSpace_of_not_isGap {x : Char} (h : isGap x = false) : isSpace x = false := by
  simp only [isGap, Bool.or_eq_false_iff] at h
  exact h.1

theorem isBreak_cases {x : Char} (h : isBreak x = true) : x = '\n' ∨ x = '\x85' ∨ x = '\u2028' ∨ x = '\u2029' := by
  simpa only [isBreak, Bool.or_eq_true, beq_iff_eq, or_assoc] using h

theorem isSpace_of_isBreak {x : Char} (h : isBreak x = true) : isSpace x = false := by
  rcases isBreak_cases h with rfl | rfl | rfl | rfl <;> rfl

/-- Of the line ends only U+0085 is read as another one. --/
theorem breakOf_of_ne {x : Char} (h : isBreak x = true) (hne : x ≠ '\x85') : breakOf x = x := by
  rcases isBreak_cases h with rfl | rfl | rfl | rfl
  · rfl
  · exact absurd rfl hne
  · rfl
  · rfl

/-- Whether a character takes one column and stays on its line. --/
def isInline (x : Char) : Bool :=
  !isBreak x && x != '\uFEFF'

theorem isBreak_of_isInline {x : Char} (h : isInline x = true) : isBreak x = false := by
  simp only [isInline, Bool.and_eq_true, Bool.not_eq_true'] at h
  exact h.1

namespace Cursor

variable {c : Cursor} {as bs : List Char} {x : Char} {n m : Nat}

/-! ### What is ahead -/

@[simp] theorem rest_step : c.step.rest = c.rest.tail := by
  unfold step
  split
  · rename_i h
    simp [h]
  · rename_i h
    split
    · simp [h]
    · split <;> simp [h]

@[simp] theorem cut_step : c.step.cut = c.cut := by
  unfold step
  split
  · rfl
  · split
    · rfl
    · split <;> rfl

@[simp] theorem rest_advance : (c.advance n).rest = c.rest.drop n := by
  induction n generalizing c with
  | zero => rfl
  | succ n ih => rw [advance, ih, rest_step, List.drop_tail]

@[simp] theorem cut_advance : (c.advance n).cut = c.cut := by
  induction n generalizing c with
  | zero => rfl
  | succ n ih => rw [advance, ih, cut_step]

@[simp] theorem advance_zero : c.advance 0 = c := rfl

theorem step_eq_advance (c : Cursor) : c.step = c.advance 1 := rfl

@[simp] theorem advance_advance : (c.advance m).advance n = c.advance (m + n) := by
  induction m generalizing c with
  | zero => rw [advance_zero, Nat.zero_add]
  | succ m ih => rw [advance, ih, Nat.succ_add, advance]

theorem skip_of {p : Char → Bool} (h : c.rest = as ++ bs) (ha : ∀ x ∈ as, p x = true)
    (hb : ∀ x, bs.head? = some x → p x = false) : c.skip p = c.advance as.length := by
  rw [skip, h, takeWhile_append_of ha hb]

/-- With no character of the class ahead nothing is passed. --/
theorem skip_none {p : Char → Bool} (h : ∀ x, c.rest.head? = some x → p x = false) : c.skip p = c :=
  @skip_of c [] c.rest p rfl (by simp) h

/-- A run of spaces is passed as a whole. --/
theorem skip_spaces (h : c.rest = List.replicate n ' ' ++ bs) (hb : bs.head? ≠ some ' ') :
    c.skip (· == ' ') = c.advance n := by
  have := skip_of (p := (· == ' ')) h (by simp) (fun x hx => by
    cases hx' : x == ' '
    · rfl
    · rw [beq_iff_eq.mp hx'] at hx
      exact absurd hx hb)
  rwa [List.length_replicate] at this

theorem lineBreak?_of_cons (h : c.rest = '\n' :: bs) : c.lineBreak? = some ('\n', c.step) := by
  simp [lineBreak?, h, isBreak, breakOf]

theorem lineBreak?_eq_none (h : ∀ x, c.rest.head? = some x → isBreak x = false) : c.lineBreak? = none := by
  unfold lineBreak?
  split
  · rename_i x rest hr
    rw [h x (by simp [hr])]
    rfl
  · rfl

theorem sees_of_complete (h : c.cut = false) : c.sees n = true := by
  cases n with
  | zero => rfl
  | succ n => simp [sees, h]

/-! ### The position -/

theorem index_le_step : c.index ≤ c.step.index := by
  unfold step
  split
  · exact Nat.le_refl _
  · split
    · exact Nat.le_succ _
    · split <;> exact Nat.le_succ _

theorem index_le_advance : c.index ≤ (c.advance n).index := by
  induction n generalizing c with
  | zero => exact Nat.le_refl _
  | succ n ih => exact Nat.le_trans index_le_step ih

theorem line_le_step : c.line ≤ c.step.line := by
  unfold step
  split
  · exact Nat.le_refl _
  · split
    · exact Nat.le_succ _
    · split <;> exact Nat.le_refl _

theorem line_le_advance : c.line ≤ (c.advance n).line := by
  induction n generalizing c with
  | zero => exact Nat.le_refl _
  | succ n ih => exact Nat.le_trans line_le_step ih

theorem step_of_break (h : c.rest = x :: bs) (hx : isBreak x = true) :
    c.step = ⟨bs, c.index + 1, c.line + 1, 0, c.cut⟩ := by
  simp [step, h, hx]

theorem step_of_inline (h : c.rest = x :: bs) (hx : isInline x = true) :
    c.step = ⟨bs, c.index + 1, c.line, c.column + 1, c.cut⟩ := by
  simp only [isInline, Bool.and_eq_true, Bool.not_eq_true', bne_iff_ne, ne_eq] at hx
  simp [step, h, hx]

/-- Characters on one line take a column each. --/
theorem advance_inline (h : c.rest = as ++ bs) (ha : ∀ x ∈ as, isInline x = true) :
    c.advance as.length = ⟨bs, c.index + as.length, c.line, c.column + as.length, c.cut⟩ := by
  induction as generalizing c with
  | nil =>
    obtain ⟨rest, index, line, column, cut⟩ := c
    obtain rfl : rest = bs := h
    rfl
  | cons a as ih =>
    have hstep := step_of_inline (h.trans (List.cons_append ..)) (ha a List.mem_cons_self)
    rw [List.length_cons, advance, ih (by rw [hstep]) fun x hx => ha x (List.mem_cons_of_mem _ hx), hstep]
    simp only [Cursor.mk.injEq, true_and, and_true]
    omega

theorem advance_spaces (h : c.rest = List.replicate n ' ' ++ bs) :
    c.advance n = ⟨bs, c.index + n, c.line, c.column + n, c.cut⟩ := by
  have hspace : ∀ x ∈ List.replicate n ' ', isInline x = true := fun x hx => by
    rw [List.eq_of_mem_replicate hx]
    decide
  have := advance_inline h hspace
  rwa [List.length_replicate] at this

/-- Behind a line end the columns start anew. --/
theorem advance_line (h : c.rest = '\n' :: (List.replicate n ' ' ++ bs)) :
    c.advance (n + 1) = ⟨bs, c.index + 1 + n, c.line + 1, n, c.cut⟩ := by
  have hstep := step_of_break h (by decide)
  rw [advance, advance_spaces (by rw [hstep]), hstep, Nat.zero_add]

end Cursor
end Retag.Markup

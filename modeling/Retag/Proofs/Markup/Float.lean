import Retag.Proofs.Document.Plain
import Retag.Proofs.Markup.Scalar
import Retag.Proofs.Number.Decimal

/-! Floating-point numbers written and read again. Every number that is read is regular, and a regular number is read
    from what is written for it. -/

namespace Retag

namespace Markup

open Number Binary64

variable {x : Binary64} {cs : List Char}

theorem isRegular_sumPlaces {weight : Nat} {sum : Binary64} {xs : List Binary64} (hsum : sum.IsRegular)
    (h : sumPlaces weight sum xs = .ok x) : x.IsRegular := by
  induction xs generalizing weight sum with
  | nil =>
    cases h
    exact hsum
  | cons y xs ih =>
    rw [sumPlaces] at h
    split at h
    · exact ih (isRegular_add _ _) h
    · cases h

theorem isRegular_readFloatPart (h : readFloatPart cs = .ok x) : x.IsRegular := by
  unfold readFloatPart at h
  split at h
  · rename_i y hy
    cases h
    exact isRegular_ofText? hy
  · cases h

/-- A number that is read is regular. --/
theorem isRegular_readFloat (h : readFloat cs = .ok x) : x.IsRegular := by
  obtain ⟨⟨negative, body⟩, -, h⟩ := bind_eq_ok.mp h
  have hsigned : ∀ {y : Binary64}, y.IsRegular → (pure (if negative then y.neg else y) : Except Fault Binary64) = .ok x →
      x.IsRegular := by
    rintro y hy hx
    cases hx
    cases negative
    · exact hy
    · exact hy.neg
  dsimp only at h
  split at h
  · exact hsigned (y := .infinity false) trivial h
  · split at h
    · exact hsigned (y := .nan) trivial h
    · split at h
      · obtain ⟨y, hy, h⟩ := bind_eq_ok.mp h
        exact hsigned (isRegular_readFloatPart hy) h
      · obtain ⟨parts, -, h⟩ := bind_eq_ok.mp h
        obtain ⟨y, hy, h⟩ := bind_eq_ok.mp h
        exact hsigned (isRegular_sumPlaces (isRegular_zero _) hy) h

/-! ### The text of a number -/

/-- The sign of a number as it is written. --/
def minus (negative : Bool) : List Char :=
  if negative then ['-'] else []

/-- A number that is not zero is written with a point among its digits. --/
theorem floatForm_eq {negative : Bool} {m : Nat} {e : Int} (hr : (Binary64.finite negative m e).IsRegular)
    (hm : 0 < m) : ∃ l : Binary64.Layout, floatForm (.finite negative m e) = String.ofList (minus negative ++ l.text) ∧
      ∀ s, readDecimal? s l.text = some (.finite s m e) := by
  obtain ⟨l, hread, hlayout⟩ := layOut_shortest hr hm
  refine ⟨l, ?_, hread⟩
  have htext : (Binary64.finite negative m e).text.toList =
      minus negative ++ layOut (shortest m e).significant.1 (shortest m e).significant.2 := by
    simp only [Binary64.text, if_neg hm.ne', String.toList_ofList]
    rfl
  have hpoint : ∀ c ∈ minus negative ++ l.whole, c ≠ '.' ∧ c ≠ 'e' := by
    intro c hc
    rcases List.mem_append.mp hc with hc | hc
    · cases negative
      · cases hc
      · obtain rfl := List.mem_singleton.mp hc
        decide
    · exact ⟨ne_of_isDigit (l.wholeDigits c hc) (by decide), ne_of_isDigit (l.wholeDigits c hc) (by decide)⟩
  -- There is a point in the layout already, or one has to be put in front of the exponent.
  rcases hlayout with hlayout | ⟨tail, htail, hfraction, hlayout⟩
  · have hcontains : (minus negative ++ l.text).contains '.' = true := by
      simp [Layout.text]
    rw [hlayout] at htext
    simp only [floatForm, htext, hcontains, if_true]
    rw [← htext, String.ofList_toList]
  · have hcontains : (minus negative ++ (l.whole ++ l.tail)).contains '.' = false := by
      rw [← Bool.not_eq_true, List.contains_iff_mem, ← List.append_assoc]
      intro hc
      rcases List.mem_append.mp hc with hc | hc
      · exact (hpoint _ hc).1 rfl
      · exact (l.tailExponent.isFloatChar _ hc).2 rfl
    have hsplit : (minus negative ++ (l.whole ++ l.tail)).takeWhile (· ≠ 'e') = minus negative ++ l.whole ∧
        (minus negative ++ (l.whole ++ l.tail)).dropWhile (· ≠ 'e') = l.tail := by
      have hall : ∀ c ∈ minus negative ++ l.whole, decide (c ≠ 'e') = true := fun c hc => decide_eq_true (hpoint c hc).2
      rw [← List.append_assoc, htail, List.takeWhile_append_of_pos hall, List.dropWhile_append_of_pos hall]
      simp
    rw [hlayout] at htext
    simp only [floatForm, htext, hcontains, Bool.false_eq_true, if_false, hsplit.1, hsplit.2]
    simp [Layout.text, hfraction]

theorem isFloatChar_minus (negative : Bool) : ∀ c ∈ minus negative, isFloatChar c = true := by
  refine List.all_eq_true.mp ?_
  cases negative <;> decide

theorem floatText_eq (h : ∀ c ∈ cs, isFloatChar c = true) : floatText cs = cs := by
  have hfilter : cs.filter (· ≠ '_') = cs := List.filter_eq_self.mpr fun c hc =>
    forall_floatChar (P := fun x => decide (x ≠ '_') = true) (by decide) (h c hc)
  rw [floatText, hfilter]
  exact (List.map_congr_left fun c hc => forall_floatChar (P := fun x => x.toLower = x) (by decide) (h c hc)).trans
    (List.map_id' cs)

theorem readFloatPart_text {l : Binary64.Layout} (h : readDecimal? false l.text = some x) : readFloatPart l.text = .ok x := by
  have hunpad : unpad l.text = l.text := unpad_of_forall fun c hc =>
    forall_floatChar (P := fun x => isPadding x = false ∧ asciiDigit x = x) (by decide) (l.isFloatChar_text hc)
  have hlower : l.text.map Char.toLower = l.text :=
    (List.map_congr_left fun c hc => forall_floatChar (P := fun x => x.toLower = x) (by decide)
      (l.isFloatChar_text hc)).trans (List.map_id' _)
  have hword : ∀ word : String, (∃ c ∈ word.toList, isFloatChar c = false) → String.ofList l.text ≠ word := by
    rintro word ⟨c, hc, hfloat⟩ heq
    exact l.text_ne hc hfloat (by rw [← heq, String.toList_ofList])
  have hinf := hword "inf" ⟨'i', by decide, by decide⟩
  have hinfinity := hword "infinity" ⟨'i', by decide, by decide⟩
  have hnan := hword "nan" ⟨'n', by decide, by decide⟩
  have hread : ofText? l.text = some x := by
    simp only [ofText?, hunpad, l.splitSign_text, hlower, hinf, hinfinity, hnan, decide_false, Bool.or_self,
      Bool.false_eq_true, if_false, h]
  rw [readFloatPart, hread]

/-- A regular number is read from what is written for it. --/
theorem readFloat_floatForm (h : x.IsRegular) : readFloat (floatForm x).toList = .ok x := by
  cases x with
  | nan => rfl
  | infinity negative => cases negative <;> rfl
  | finite negative m e =>
    rcases Nat.eq_zero_or_pos m with rfl | hm
    · obtain rfl := exponent_of_zero h
      cases negative <;> rfl
    · obtain ⟨l, hform, hread⟩ := floatForm_eq h hm
      have hchars : ∀ c ∈ minus negative ++ l.text, isFloatChar c = true := fun c hc =>
        (List.mem_append.mp hc).elim (isFloatChar_minus negative c) l.isFloatChar_text
      have hsign : signOff (minus negative ++ l.text) = .ok (negative, l.text) := by
        cases negative
        · obtain ⟨d, ds, hds, -⟩ := l.head_text
          rw [minus, if_neg (by decide), List.nil_append, signOff, l.splitSign_text, hds]
          rfl
        · rfl
      have hinf : l.text ≠ ".inf".toList := l.text_ne (c := 'i') (by decide) (by decide)
      have hnan : l.text ≠ ".nan".toList := l.text_ne (c := 'n') (by decide) (by decide)
      have hparts : Form.colonParts l.text = [l.text] := colonParts_eq fun c hc =>
        forall_floatChar (P := fun x => x ≠ ':') (by decide) (l.isFloatChar_text hc)
      rw [hform, String.toList_ofList, readFloat, floatText_eq hchars, hsign, ok_bind]
      simp only [hinf, hnan, if_false, hparts, readFloatPart_text (hread false), ok_bind, pure_eq_ok]
      cases negative <;> rfl

/-- What is written for a regular number is printable. --/
theorem arePrintable_floatForm (h : x.IsRegular) : ArePrintable (floatForm x).toList := by
  cases x with
  | nan => decide
  | infinity negative => cases negative <;> decide
  | finite negative m e =>
    rcases Nat.eq_zero_or_pos m with rfl | hm
    · obtain rfl := exponent_of_zero h
      cases negative <;> decide
    · obtain ⟨l, hform, -⟩ := floatForm_eq h hm
      rw [hform, String.toList_ofList]
      exact fun c hc => forall_floatChar (P := IsPrintable) (by decide)
        ((List.mem_append.mp hc).elim (isFloatChar_minus negative c) l.isFloatChar_text)

end Markup

end Retag

import Mathlib.Data.List.TakeWhile
import Retag.Proofs.Number.Digits
import Retag.Proofs.Number.Shortest

/-! Floating-point numbers as decimal text. However the digits of a number are laid out, a decimal of the same value is
    read, so the number comes back. -/

namespace Retag.Number.Binary64

variable {x y : Binary64} {m : Nat} {e : Int} {ds cs : List Char}

/-! ### Decimals of a value -/

theorem Within.pos {q : ℚ} (h : Within m e q) (hm : 0 < m) : (2 : ℚ) ^ (e - 1) ≤ q := by
  have hdown : ((quarterSteps m e).1 : ℚ) ≤ 2 := by
    simp only [quarterSteps]
    split <;> norm_num
  have hmpos : (1 : ℚ) ≤ m := by exact_mod_cast hm
  calc (2 : ℚ) ^ (e - 1) = 2 * 2 ^ (e - 2) := by
        rw [show e - 1 = 1 + (e - 2) by ring, two_zpow_add]
        norm_num
    _ ≤ (4 * m - (quarterSteps m e).1) * 2 ^ (e - 2) := by
        have := two_zpow_pos (e - 2)
        gcongr
        linarith
    _ ≤ q := h.1

theorem two_pow_lt_ten_pow : (2 : ℚ) ^ 1075 < 10 ^ 400 := by
  rw [show 1075 = 43 * 25 by rfl, show 400 = 16 * 25 by rfl, pow_mul, pow_mul]
  exact pow_lt_pow_left₀ (by norm_num) (by norm_num) (by norm_num)

/-- A decimal that a number stands for is read as the number. --/
theorem ofDecimal_of_within {negative : Bool} {digits : Nat} {exponent : Int}
    (hr : (Binary64.finite negative m e).IsRegular) (hm : 0 < m) (h : Within m e (digits * 10 ^ exponent)) :
    ofDecimal negative digits exponent = .finite negative m e := by
  obtain ⟨hmin, hmax, hlt, -⟩ := id hr
  have hlow := h.pos hm
  have hten := ten_zpow_pos exponent
  have hdigits : 0 < digits := by
    rcases Nat.eq_zero_or_pos digits with rfl | hpos
    · have := two_zpow_pos (e - 1)
      simp only [Nat.cast_zero, zero_mul] at hlow
      linarith
    · exact hpos
  have hsplit : (10 : ℚ) ^ ((digitCount digits : Int) + exponent) = 10 ^ digitCount digits * 10 ^ exponent := by
    rw [ten_zpow_add, zpow_natCast]
  -- The point stands within the range, so the exponent does not decide alone.
  have habove : (digits * 10 ^ exponent : ℚ) < 10 ^ ((digitCount digits : Int) + exponent) := by
    rw [hsplit]
    have : (digits : ℚ) < 10 ^ digitCount digits := by exact_mod_cast lt_ten_pow_digitCount digits
    exact mul_lt_mul_of_pos_right this hten
  have hbelow : (10 : ℚ) ^ ((digitCount digits : Int) + exponent - 1) ≤ digits * 10 ^ exponent := by
    have hpos := digitCount_pos digits
    rw [show (digitCount digits : Int) + exponent - 1 = ((digitCount digits - 1 : Nat) : Int) + exponent by omega,
      ten_zpow_add, zpow_natCast]
    have : (10 ^ (digitCount digits - 1) : ℚ) ≤ digits := by exact_mod_cast ten_pow_digitCount_le hdigits
    exact mul_le_mul_of_nonneg_right this hten.le
  have hsmall : ¬ (digitCount digits : Int) + exponent < -400 := fun hlt => by
    have h₁ : (10 : ℚ) ^ ((digitCount digits : Int) + exponent) ≤ 10 ^ (-400 : Int) :=
      zpow_le_zpow_right₀ (by norm_num) (by omega)
    have h₂ : (2 : ℚ) ^ (-1075 : Int) ≤ 2 ^ (e - 1) := two_zpow_le.mpr (by unfold minExponent at hmin; omega)
    have h₃ : (10 : ℚ) ^ (-400 : Int) < 2 ^ (-1075 : Int) := by
      rw [zpow_neg, zpow_neg]
      exact inv_strictAnti₀ (two_zpow_pos _) (by exact_mod_cast two_pow_lt_ten_pow)
    exact absurd (lt_of_le_of_lt (h₂.trans hlow) habove) (not_lt.mpr (h₁.trans h₃.le))
  have hbig : ¬ 400 < (digitCount digits : Int) + exponent := fun hgt => by
    have h₁ : (10 : ℚ) ^ (400 : Int) ≤ 10 ^ ((digitCount digits : Int) + exponent - 1) :=
      zpow_le_zpow_right₀ (by norm_num) (by omega)
    have h₂ : (digits * 10 ^ exponent : ℚ) ≤ 2 ^ (55 : Int) * 2 ^ (e - 2) := by
      refine le_trans h.2.1 (mul_le_mul_of_nonneg_right ?_ (two_zpow_pos _).le)
      have : (m : ℚ) + 1 ≤ 2 ^ 53 := by exact_mod_cast hlt
      simp only [quarterSteps, Nat.cast_ofNat]
      norm_num at this ⊢
      linarith
    have h₃ : (2 : ℚ) ^ (55 : Int) * 2 ^ (e - 2) ≤ 2 ^ (1075 : Int) := by
      rw [← two_zpow_add]
      exact two_zpow_le.mpr (by unfold maxExponent at hmax; omega)
    have h₄ : (2 : ℚ) ^ (1075 : Int) < 10 ^ (400 : Int) := by exact_mod_cast two_pow_lt_ten_pow
    exact absurd (lt_of_le_of_lt (h₂.trans h₃) h₄) (not_lt.mpr (h₁.trans hbelow))
  obtain ⟨hd, hscale⟩ := scaleTen_eq digits Nat.one_pos (-exponent)
  unfold ofDecimal
  simp only [if_neg hdigits.ne', if_neg hbig, if_neg hsmall]
  refine ofRatio_of_within hd hr hm ?_
  rwa [hscale, Nat.cast_one, div_one, zpow_neg, div_inv_eq_mul]

/-! ### Reading -/

theorem spanDigits_append (h : ∀ x ∈ ds, x.isDigit = true) (hcs : ∀ x ∈ cs.head?, x.isDigit = false) :
    spanDigits (ds ++ cs) = (ds, cs) := by
  unfold spanDigits
  rw [List.span_eq_takeWhile_dropWhile]
  induction ds with
  | nil =>
    cases cs with
    | nil => rfl
    | cons c cs => simp [hcs c rfl]
  | cons d ds ih =>
    have := ih fun x hx => h x (List.mem_cons_of_mem _ hx)
    simp only [Prod.mk.injEq] at this
    simp [h d List.mem_cons_self, this]

/-- An exponent at the end of a text: nothing, or a sign and digits behind the letter. --/
inductive Exponent : List Char → Int → Prop
  | none : Exponent [] 0
  | positive {es : List Char} (h : ∀ x ∈ es, x.isDigit = true) (hne : es ≠ []) :
      Exponent ('e' :: '+' :: es) (Nat.ofDigitChars 10 es 0)
  | negative {es : List Char} (h : ∀ x ∈ es, x.isDigit = true) (hne : es ≠ []) :
      Exponent ('e' :: '-' :: es) (-(Nat.ofDigitChars 10 es 0 : Int))

theorem Exponent.read {x : Int} (h : Exponent cs x) : readExponent? cs = some x := by
  cases h with
  | none => rfl
  | positive h hne =>
    have hall := List.all_eq_true.mpr h
    simp [readExponent?, splitSign, hne, hall, ofDigits?_digits h]
  | negative h hne =>
    have hall := List.all_eq_true.mpr h
    simp [readExponent?, splitSign, hne, hall, ofDigits?_digits h]

theorem Exponent.head {x : Int} (h : Exponent cs x) : ∀ c ∈ cs.head?, c.isDigit = false := by
  cases h <;> simp

/-- Digits, a point and digits, and perhaps an exponent, are read as the decimal that they write. --/
theorem readDecimal?_eq {negative : Bool} {whole fraction : List Char} {x : Int} (hwhole : ∀ c ∈ whole, c.isDigit = true)
    (hne : whole ≠ []) (hfraction : ∀ c ∈ fraction, c.isDigit = true) (hx : Exponent cs x) :
    readDecimal? negative (whole ++ '.' :: (fraction ++ cs)) =
      some (ofDecimal negative (Nat.ofDigitChars 10 (whole ++ fraction) 0) (x - fraction.length)) := by
  have hspan : spanDigits (whole ++ '.' :: (fraction ++ cs)) = (whole, '.' :: (fraction ++ cs)) :=
    spanDigits_append hwhole (by simp)
  have hspan' : spanDigits (fraction ++ cs) = (fraction, cs) := spanDigits_append hfraction hx.head
  have hdigits : ∀ c ∈ whole ++ fraction, c.isDigit = true := fun c hc =>
    (List.mem_append.mp hc).elim (hwhole c) (hfraction c)
  simp [readDecimal?, hspan, hspan', hne, ofDigits?_digits hdigits, hx.read]

/-! ### Layouts -/

/-- Digits before and behind the point, with an exponent behind them. --/
structure Layout where
  whole : List Char
  fraction : List Char
  tail : List Char
  exponent : Int
  wholeDigits : ∀ c ∈ whole, c.isDigit = true
  notEmpty : whole ≠ []
  fractionDigits : ∀ c ∈ fraction, c.isDigit = true
  tailExponent : Exponent tail exponent

namespace Layout

/-- The text of a layout. --/
def text (l : Layout) : List Char :=
  l.whole ++ '.' :: (l.fraction ++ l.tail)

/-- The value of a layout. --/
def value (l : Layout) : ℚ :=
  Nat.ofDigitChars 10 (l.whole ++ l.fraction) 0 * 10 ^ (l.exponent - l.fraction.length)

/-- A layout of a decimal that a number stands for is read as the number. --/
theorem read_text {l : Layout} {negative : Bool} (hr : (Binary64.finite negative m e).IsRegular) (hm : 0 < m)
    (h : Within m e l.value) : readDecimal? negative l.text = some (.finite negative m e) := by
  rw [text, readDecimal?_eq l.wholeDigits l.notEmpty l.fractionDigits l.tailExponent, ofDecimal_of_within hr hm h]

end Layout

/-- The characters of floating-point numbers. --/
def isFloatChar (c : Char) : Bool :=
  "0123456789.e+-".toList.contains c

theorem forall_floatChar {P : Char → Prop} [DecidablePred P] (h : "0123456789.e+-".toList.all fun x => decide (P x))
    {x : Char} (hx : isFloatChar x = true) : P x :=
  of_decide_eq_true (List.all_eq_true.mp h x (List.contains_iff_mem.mp hx))

theorem isFloatChar_of_isDigit {x : Char} (h : x.isDigit = true) : isFloatChar x = true :=
  forall_digit (P := fun x => isFloatChar x = true) (by decide) h

theorem Exponent.isFloatChar {x : Int} (h : Exponent cs x) : ∀ c ∈ cs, isFloatChar c = true ∧ c ≠ '.' := by
  have hdigit : ∀ {c : Char}, c.isDigit = true → Binary64.isFloatChar c = true ∧ c ≠ '.' := fun hc =>
    ⟨isFloatChar_of_isDigit hc, forall_digit (P := fun x => x ≠ '.') (by decide) hc⟩
  cases h with
  | none => exact fun c hc => absurd hc List.not_mem_nil
  | positive h _ =>
    intro c hc
    rcases List.mem_cons.mp hc with rfl | hc
    · exact ⟨rfl, by decide⟩
    · rcases List.mem_cons.mp hc with rfl | hc
      · exact ⟨rfl, by decide⟩
      · exact hdigit (h c hc)
  | negative h _ =>
    intro c hc
    rcases List.mem_cons.mp hc with rfl | hc
    · exact ⟨rfl, by decide⟩
    · rcases List.mem_cons.mp hc with rfl | hc
      · exact ⟨rfl, by decide⟩
      · exact hdigit (h c hc)

theorem Layout.isFloatChar_text {l : Layout} {c : Char} (h : c ∈ l.text) : isFloatChar c = true := by
  rcases List.mem_append.mp h with h | h
  · exact isFloatChar_of_isDigit (l.wholeDigits c h)
  · rcases List.mem_cons.mp h with rfl | h
    · rfl
    · rcases List.mem_append.mp h with h | h
      · exact isFloatChar_of_isDigit (l.fractionDigits c h)
      · exact (l.tailExponent.isFloatChar c h).1

namespace Layout

theorem head_text (l : Layout) : ∃ d ds, l.text = d :: ds ∧ d.isDigit = true := by
  obtain ⟨d, ds, hds⟩ := List.exists_cons_of_ne_nil l.notEmpty
  exact ⟨d, _, by rw [text, hds, List.cons_append], l.wholeDigits d (hds ▸ List.mem_cons_self)⟩

theorem splitSign_text (l : Layout) : splitSign l.text = (false, l.text) := by
  obtain ⟨d, ds, hds, hd⟩ := l.head_text
  rw [hds]
  unfold splitSign
  split
  · rename_i heq
    cases (List.cons.inj heq).1
    cases hd
  · rename_i heq
    cases (List.cons.inj heq).1
    cases hd
  · rfl

/-- A text with a letter that is not one of a number is not the text of one. --/
theorem text_ne {l : Layout} {word : List Char} {c : Char} (hc : c ∈ word) (hword : isFloatChar c = false) :
    l.text ≠ word := by
  rintro rfl
  cases hword.symm.trans (l.isFloatChar_text hc)

end Layout

theorem isDigit_of_mem_zeros {k : Nat} {x : Char} (h : x ∈ List.replicate k '0') : x.isDigit = true := by
  rw [(List.mem_replicate.mp h).2]
  rfl

/-- The exponent behind a mantissa. --/
theorem exponent_tail (e : Int) : Exponent ('e' :: (if e < 0 then '-' else '+') ::
    (if (Nat.toDigits 10 e.natAbs).length < 2 then '0' :: Nat.toDigits 10 e.natAbs else Nat.toDigits 10 e.natAbs)) e := by
  have hdigits : ∀ x ∈ (if (Nat.toDigits 10 e.natAbs).length < 2 then '0' :: Nat.toDigits 10 e.natAbs
      else Nat.toDigits 10 e.natAbs), x.isDigit = true := fun x hx => by
    split at hx
    · rcases List.mem_cons.mp hx with rfl | hx
      · rfl
      · exact isDigit_of_mem_toDigits hx
    · exact isDigit_of_mem_toDigits hx
  have hne : (if (Nat.toDigits 10 e.natAbs).length < 2 then '0' :: Nat.toDigits 10 e.natAbs
      else Nat.toDigits 10 e.natAbs) ≠ [] := by
    split
    · exact List.cons_ne_nil _ _
    · exact Nat.toDigits_ne_nil
  have hvalue : Nat.ofDigitChars 10 (if (Nat.toDigits 10 e.natAbs).length < 2 then '0' :: Nat.toDigits 10 e.natAbs
      else Nat.toDigits 10 e.natAbs) 0 = e.natAbs := by
    split
    · exact ofDigitChars_zeros_toDigits 1 e.natAbs
    · exact Nat.ofDigitChars_ten_toDigits
  by_cases he : e < 0
  · have h := Exponent.negative hdigits hne
    rw [hvalue, show -(e.natAbs : Int) = e by omega] at h
    rwa [if_pos he]
  · have h := Exponent.positive hdigits hne
    rw [hvalue, show (e.natAbs : Int) = e by omega] at h
    rwa [if_neg he]

namespace Layout

/-- The layout of digits behind a point and zeros. --/
def behindZeros (hdigits : ∀ x ∈ ds, x.isDigit = true) (k : Nat) : Layout where
  whole := ['0']
  fraction := List.replicate k '0' ++ ds
  tail := []
  exponent := 0
  wholeDigits := by simp
  notEmpty := List.cons_ne_nil _ _
  fractionDigits := fun c hc => (List.mem_append.mp hc).elim isDigit_of_mem_zeros (hdigits c)
  tailExponent := .none

theorem value_behindZeros (hdigits : ∀ x ∈ ds, x.isDigit = true) (k : Nat) :
    (behindZeros hdigits k).value = Nat.ofDigitChars 10 ds 0 * 10 ^ (-(k : Int) - ds.length) := by
  have hzeros : Nat.ofDigitChars 10 (['0'] ++ (List.replicate k '0' ++ ds)) 0 = Nat.ofDigitChars 10 ds 0 :=
    ofDigitChars_zeros (k + 1) ds
  simp only [value, behindZeros, hzeros, List.length_append, List.length_replicate]
  congr 2
  push_cast
  ring

/-- The layout of digits with zeros behind them, before the point. --/
def beforeZeros (hdigits : ∀ x ∈ ds, x.isDigit = true) (hne : ds ≠ []) (k : Nat) : Layout where
  whole := ds ++ List.replicate k '0'
  fraction := ['0']
  tail := []
  exponent := 0
  wholeDigits := fun c hc => (List.mem_append.mp hc).elim (hdigits c) isDigit_of_mem_zeros
  notEmpty := by simp [hne]
  fractionDigits := by simp
  tailExponent := .none

theorem value_beforeZeros (hdigits : ∀ x ∈ ds, x.isDigit = true) (hne : ds ≠ []) (k : Nat) :
    (beforeZeros hdigits hne k).value = Nat.ofDigitChars 10 ds 0 * 10 ^ (k : Int) := by
  have hzeros : Nat.ofDigitChars 10 (ds ++ List.replicate k '0' ++ ['0']) 0 =
      10 ^ (k + 1) * Nat.ofDigitChars 10 ds 0 := by
    rw [List.append_assoc, ← List.replicate_succ', Nat.ofDigitChars_append, Nat.ofDigitChars_replicate_zero]
  simp only [value, beforeZeros, hzeros, List.length_singleton]
  rw [show (0 : Int) - ((1 : Nat) : Int) = -1 by rfl, zpow_neg, zpow_natCast]
  push_cast
  ring

/-- The layout of digits with a point behind the first ones and an exponent. --/
def pointed (hdigits : ∀ x ∈ ds, x.isDigit = true) (hne : ds ≠ []) {k : Nat} (hk : 0 < k) {x : Int}
    (hx : Exponent cs x) : Layout where
  whole := ds.take k
  fraction := ds.drop k
  tail := cs
  exponent := x
  wholeDigits := fun c hc => hdigits c (List.mem_of_mem_take hc)
  notEmpty := fun h => (List.take_eq_nil_iff.mp h).elim hk.ne' hne
  fractionDigits := fun c hc => hdigits c (List.mem_of_mem_drop hc)
  tailExponent := hx

theorem value_pointed (hdigits : ∀ x ∈ ds, x.isDigit = true) (hne : ds ≠ []) {k : Nat} (hk : 0 < k) {x : Int}
    (hx : Exponent cs x) (hle : k ≤ ds.length) :
    (pointed hdigits hne hk hx).value = Nat.ofDigitChars 10 ds 0 * 10 ^ (x + k - ds.length) := by
  simp only [value, pointed, List.take_append_drop, List.length_drop]
  congr 2
  omega

end Layout

/-- Digits are laid out with a point among them; or they are one digit with an exponent, and a point and a zero
    between them change nothing. --/
theorem layOut_cases (hdigits : ∀ x ∈ ds, x.isDigit = true) (hne : ds ≠ []) (point : Int) :
    ∃ l : Layout, l.value = Nat.ofDigitChars 10 ds 0 * 10 ^ (point - ds.length) ∧
      (layOut ds point = l.text ∨ ∃ rest, l.tail = 'e' :: rest ∧ l.fraction = ['0'] ∧
        layOut ds point = l.whole ++ l.tail) := by
  have hpos := List.length_pos_iff.mpr hne
  unfold layOut
  split
  · split
    · obtain ⟨k, hk⟩ := Int.eq_ofNat_of_zero_le (show 0 ≤ -point by omega)
      refine ⟨.behindZeros hdigits k, ?_, .inl ?_⟩
      · rw [Layout.value_behindZeros, ← hk, neg_neg]
      · simp [Layout.text, Layout.behindZeros, hk]
    · split
      · obtain ⟨k, hk⟩ := Int.eq_ofNat_of_zero_le (show 0 ≤ point - ds.length by omega)
        refine ⟨.beforeZeros hdigits hne k, ?_, .inl ?_⟩
        · rw [Layout.value_beforeZeros, hk]
        · simp [Layout.text, Layout.beforeZeros, hk]
      · obtain ⟨k, rfl⟩ := Int.eq_ofNat_of_zero_le (show 0 ≤ point by omega)
        refine ⟨.pointed hdigits hne (show 0 < k by omega) .none, ?_, .inl ?_⟩
        · rw [Layout.value_pointed hdigits hne _ .none (by omega), zero_add]
        · simp [Layout.text, Layout.pointed]
  · have htail := exponent_tail (point - 1)
    obtain ⟨d, rest, rfl⟩ := List.exists_cons_of_ne_nil hne
    cases rest with
    | nil =>
      -- One digit stands without a point; a point and a zero behind it would not change the value.
      have hdigits' : ∀ x ∈ [d, '0'], x.isDigit = true := by simpa using hdigits
      have hten : Nat.ofDigitChars 10 [d, '0'] 0 = 10 * Nat.ofDigitChars 10 [d] 0 := by
        rw [show [d, '0'] = [d] ++ List.replicate 1 '0' by rfl, Nat.ofDigitChars_append, Nat.ofDigitChars_replicate_zero,
          pow_one]
      refine ⟨.pointed hdigits' (List.cons_ne_nil _ _) Nat.one_pos htail, ?_, .inr ⟨_, rfl, rfl, rfl⟩⟩
      rw [Layout.value_pointed _ _ _ _ (by simp), hten, List.length_singleton, List.length_cons, List.length_singleton,
        show point - 1 + ((1 : Nat) : Int) - ((1 + 1 : Nat) : Int) = point - ((1 : Nat) : Int) + -1 by push_cast; ring,
        ten_zpow_add, zpow_neg]
      push_cast
      ring
    | cons d' rest =>
      refine ⟨.pointed hdigits hne Nat.one_pos htail, ?_, .inl rfl⟩
      rw [Layout.value_pointed _ _ _ _ (by simp), Nat.cast_one, sub_add_cancel]

/-- The digits of a decimal are the significant ones and zeros. --/
theorem toDigits_eq_significant (d : Decimal) :
    ∃ k, Nat.toDigits 10 d.digits = d.significant.1 ++ List.replicate k '0' := by
  refine ⟨((Nat.toDigits 10 d.digits).reverse.takeWhile (· == '0')).length, ?_⟩
  have hzeros : (Nat.toDigits 10 d.digits).reverse.takeWhile (· == '0') =
      List.replicate ((Nat.toDigits 10 d.digits).reverse.takeWhile (· == '0')).length '0' :=
    List.eq_replicate_iff.mpr ⟨rfl, fun c hc => by simpa using List.mem_takeWhile_imp hc⟩
  have happend := List.takeWhile_append_dropWhile (p := (· == '0')) (l := (Nat.toDigits 10 d.digits).reverse)
  rw [hzeros] at happend
  have hreverse := congrArg List.reverse happend
  rw [List.reverse_append, List.reverse_replicate, List.reverse_reverse] at hreverse
  exact hreverse.symm

/-- The significant digits of a decimal have its value. --/
theorem significant_spec {d : Decimal} (h : 0 < d.digits) : (∀ x ∈ d.significant.1, x.isDigit = true) ∧
    d.significant.1 ≠ [] ∧
    (Nat.ofDigitChars 10 d.significant.1 0 * 10 ^ (d.significant.2 - d.significant.1.length) : ℚ) = d.value := by
  obtain ⟨first, rest, hhead, hfirst⟩ := toDigits_head h
  obtain ⟨k, hk⟩ := toDigits_eq_significant d
  have hpoint : d.significant.2 = (Nat.toDigits 10 d.digits).length + d.exponent := rfl
  refine ⟨fun x hx => ?_, fun hnil => ?_, ?_⟩
  · exact isDigit_of_mem_toDigits (n := d.digits) (by
      rw [hk]
      exact List.mem_append_left _ hx)
  · rw [hnil, List.nil_append, hhead] at hk
    have hmem : first ∈ List.replicate k '0' := hk ▸ List.mem_cons_self
    exact hfirst (List.mem_replicate.mp hmem).2
  · have hvalue : d.digits = 10 ^ k * Nat.ofDigitChars 10 d.significant.1 0 := by
      rw [← Nat.ofDigitChars_replicate_zero, ← Nat.ofDigitChars_append, ← hk, Nat.ofDigitChars_ten_toDigits]
    have hlen : ((Nat.toDigits 10 d.digits).length : Int) = d.significant.1.length + k := by
      rw [hk, List.length_append, List.length_replicate, Nat.cast_add]
    rw [hpoint, hlen, show (d.significant.1.length : Int) + k + d.exponent - d.significant.1.length = k + d.exponent by
      ring, ten_zpow_add, zpow_natCast, Decimal.value]
    conv_rhs => rw [hvalue]
    push_cast
    ring

/-- The digits of a number are laid out so that the number is read from them. --/
theorem layOut_shortest {negative : Bool} (hr : (Binary64.finite negative m e).IsRegular) (hm : 0 < m) :
    ∃ l : Layout, (∀ s, readDecimal? s l.text = some (.finite s m e)) ∧
      (layOut (shortest m e).significant.1 (shortest m e).significant.2 = l.text ∨
        ∃ rest, l.tail = 'e' :: rest ∧ l.fraction = ['0'] ∧
          layOut (shortest m e).significant.1 (shortest m e).significant.2 = l.whole ++ l.tail) := by
  have hwithin := within_shortest hr hm
  have hdigits : 0 < (shortest m e).digits := by
    rcases Nat.eq_zero_or_pos (shortest m e).digits with h | h
    · have hlow := hwithin.pos hm
      have := two_zpow_pos (e - 1)
      rw [Decimal.value, h, Nat.cast_zero, zero_mul] at hlow
      linarith
    · exact h
  obtain ⟨hds, hne, hvalue⟩ := significant_spec hdigits
  obtain ⟨l, hl, hlayout⟩ := layOut_cases hds hne (shortest m e).significant.2
  refine ⟨l, fun s => ?_, hlayout⟩
  have hr' : (Binary64.finite s m e).IsRegular := hr
  exact Layout.read_text hr' hm (by rwa [hl, hvalue])

/-! ### Regular results -/

theorem isRegular_zero (negative : Bool) : (zero negative).IsRegular := by
  simp [zero, IsRegular, minExponent, maxExponent]

theorem exponent_of_zero {negative : Bool} {e : Int} (h : (Binary64.finite negative 0 e).IsRegular) :
    e = minExponent := by
  simpa using h.2.2.2

theorem IsRegular.neg (h : x.IsRegular) : x.neg.IsRegular := by
  cases x <;> exact h

theorem isRegular_ofScaled (negative : Bool) (m : Nat) (e : Int) : (ofScaled negative m e).IsRegular :=
  isRegular_ofRatio negative (scale_eq m Nat.one_pos e).1

theorem isRegular_add (x y : Binary64) : (x.add y).IsRegular := by
  cases x with
  | nan => trivial
  | infinity s =>
    cases y with
    | nan => trivial
    | infinity t =>
      simp only [add]
      split <;> trivial
    | finite t n f => trivial
  | finite s m e =>
    cases y with
    | nan => trivial
    | infinity t => trivial
    | finite t n f =>
      have hsum : ∀ sum : Int, (if sum = 0 then zero (s && t)
          else ofScaled (sum < 0) sum.natAbs (min e f)).IsRegular := by
        intro sum
        split
        · exact isRegular_zero _
        · exact isRegular_ofScaled _ _ _
      exact hsum _

theorem isRegular_ofDecimal (negative : Bool) (digits : Nat) (exponent : Int) :
    (ofDecimal negative digits exponent).IsRegular := by
  unfold ofDecimal
  dsimp only
  split
  · exact isRegular_zero _
  · split
    · trivial
    · split
      · exact isRegular_zero _
      · exact isRegular_ofRatio negative (scaleTen_eq digits Nat.one_pos (-exponent)).1

theorem isRegular_ofParts {negative : Bool} {whole fraction rest : List Char}
    (h : (if (whole.isEmpty && fraction.isEmpty) = true then none
      else match ofDigits? 10 (whole ++ fraction), readExponent? rest with
        | some n, some e => some (ofDecimal negative n (e - fraction.length))
        | _, _ => none) = some x) : x.IsRegular := by
  split at h
  · cases h
  · split at h
    · cases h
      exact isRegular_ofDecimal _ _ _
    · cases h

theorem isRegular_readDecimal? {negative : Bool} {cs : List Char} (h : readDecimal? negative cs = some x) :
    x.IsRegular :=
  isRegular_ofParts h

theorem isRegular_ofText? {cs : List Char} (h : ofText? cs = some x) : x.IsRegular := by
  unfold ofText? at h
  dsimp only at h
  split at h
  · cases h
    trivial
  · split at h
    · cases h
      trivial
    · exact isRegular_readDecimal? h

end Retag.Number.Binary64

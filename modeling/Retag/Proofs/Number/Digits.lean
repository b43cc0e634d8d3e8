import Retag.Calendar.Timestamp
import Retag.Number.Numeral

/-! Decimal digits of whole numbers, perhaps with zeros in front of them. They read back as the number, in numerals and
    in the fields of dates. -/

namespace Retag.Number

variable {cs : List Char} {x : Char} {n : Nat}

theorem ofDigitChars_zeros (k : Nat) (ds : List Char) :
    Nat.ofDigitChars 10 (List.replicate k '0' ++ ds) 0 = Nat.ofDigitChars 10 ds 0 := by
  induction k with
  | zero => rfl
  | succ k ih => simpa [List.replicate_succ, Nat.ofDigitChars_cons] using ih

/-- Zeros in front of the digits of a number do not count. --/
theorem ofDigitChars_zeros_toDigits (k n : Nat) :
    Nat.ofDigitChars 10 (List.replicate k '0' ++ Nat.toDigits 10 n) 0 = n := by
  rw [ofDigitChars_zeros, Nat.ofDigitChars_ten_toDigits]

theorem ofDigitChars_padded (width n : Nat) : Nat.ofDigitChars 10 (Calendar.padded width n) 0 = n :=
  ofDigitChars_zeros_toDigits _ n

theorem padded_injective (width : Nat) : Function.Injective (Calendar.padded width) := by
  intro m n h
  rw [← ofDigitChars_padded width m, h, ofDigitChars_padded]

theorem isDigit_of_mem_toDigits {n : Nat} {x : Char} (h : x ∈ Nat.toDigits 10 n) : x.isDigit = true :=
  Nat.isDigit_of_mem_toDigits (by decide) (by decide) h

theorem isDigit_of_mem_padded {width n : Nat} {x : Char} (h : x ∈ Calendar.padded width n) : x.isDigit = true := by
  rcases List.mem_append.mp h with h | h
  · rw [(List.mem_replicate.mp h).2]
    rfl
  · exact isDigit_of_mem_toDigits h

/-! ### Numerals -/

theorem mem_of_isDigit (h : x.isDigit = true) : x ∈ "0123456789".toList := by
  simp only [Char.isDigit, Bool.and_eq_true, decide_eq_true_eq, ge_iff_le, UInt32.le_iff_toNat_le] at h
  have hx : x = Char.ofNat x.toNat := (Char.ofNat_toNat x).symm
  have hrange : x.toNat = 48 ∨ x.toNat = 49 ∨ x.toNat = 50 ∨ x.toNat = 51 ∨ x.toNat = 52 ∨ x.toNat = 53 ∨ x.toNat = 54 ∨
      x.toNat = 55 ∨ x.toNat = 56 ∨ x.toNat = 57 := by
    have h₁ : 48 ≤ x.toNat := h.1
    have h₂ : x.toNat ≤ 57 := h.2
    omega
  rcases hrange with h | h | h | h | h | h | h | h | h | h <;> rw [hx, h] <;> decide

/-- What holds of the ten digits holds of every digit. --/
theorem forall_digit {P : Char → Prop} [DecidablePred P] (h : "0123456789".toList.all fun x => decide (P x))
    (hx : x.isDigit = true) : P x :=
  of_decide_eq_true (List.all_eq_true.mp h x (mem_of_isDigit hx))

theorem not_isPadding_of_isDigit (h : x.isDigit = true) : isPadding x = false :=
  forall_digit (P := fun x => isPadding x = false) (by decide) h

theorem asciiDigit_of_isDigit (h : x.isDigit = true) : asciiDigit x = x :=
  forall_digit (P := fun x => asciiDigit x = x) (by decide) h

theorem digitIn?_of_isDigit (h : x.isDigit = true) : digitIn? 10 x = some (x.toNat - 48) :=
  forall_digit (P := fun x => digitIn? 10 x = some (x.toNat - 48)) (by decide) h

theorem unpad_of_forall (h : ∀ x ∈ cs, isPadding x = false ∧ asciiDigit x = x) : unpad cs = cs := by
  have hdrop : ∀ {bs : List Char}, (∀ x ∈ bs, isPadding x = false ∧ asciiDigit x = x) →
      bs.dropWhile isPadding = bs := by
    intro bs hbs
    cases bs with
    | nil => rfl
    | cons b bs => rw [List.dropWhile_cons_of_neg (by simp [(hbs b List.mem_cons_self).1])]
  rw [unpad, hdrop h, hdrop fun x hx => h x (List.mem_reverse.mp hx), List.reverse_reverse]
  exact (List.map_congr_left fun x hx => (h x hx).2).trans (List.map_id' cs)

theorem unpad_digits (h : ∀ x ∈ cs, x.isDigit = true) : unpad cs = cs :=
  unpad_of_forall fun x hx => ⟨not_isPadding_of_isDigit (h x hx), asciiDigit_of_isDigit (h x hx)⟩

theorem splitSign_digits (h : ∀ x ∈ cs, x.isDigit = true) : splitSign cs = (false, cs) := by
  unfold splitSign
  split
  · cases h '-' List.mem_cons_self
  · cases h '+' List.mem_cons_self
  · rfl

theorem foldl_digits (h : ∀ x ∈ cs, x.isDigit = true) (n : Nat) :
    cs.foldl (fun n c => n.bind fun n => (digitIn? 10 c).map (10 * n + ·)) (some n) = some (Nat.ofDigitChars 10 cs n) := by
  induction cs generalizing n with
  | nil => rfl
  | cons c cs ih =>
    rw [List.foldl_cons, Option.bind_some, digitIn?_of_isDigit (h c List.mem_cons_self), Option.map_some,
      ih fun x hx => h x (List.mem_cons_of_mem _ hx), Nat.ofDigitChars_cons]
    rfl

theorem ofDigits?_digits (h : ∀ x ∈ cs, x.isDigit = true) : ofDigits? 10 cs = some (Nat.ofDigitChars 10 cs 0) :=
  foldl_digits h 0

theorem dropBaseMark_ten (cs : List Char) : dropBaseMark 10 cs = cs := by
  unfold dropBaseMark
  split
  · rfl
  · rfl

/-- A row of digits is read as the number that it writes. --/
theorem readInt?_digits (h : ∀ x ∈ cs, x.isDigit = true) (hne : cs ≠ []) (hlen : cs.length ≤ maxDigits) :
    readInt? 10 cs = some (Nat.ofDigitChars 10 cs 0 : Int) := by
  have hempty : cs.isEmpty = false := by simpa using hne
  have hlong : decide (maxDigits < cs.length) = false := decide_eq_false (Nat.not_lt.mpr hlen)
  simp [readInt?, unpad_digits h, splitSign_digits h, dropBaseMark_ten, hempty, hlong, ofDigits?_digits h]

/-- The first digit of a number is zero only if it is zero. --/
theorem toDigits_head (hn : 0 < n) : ∃ d ds, Nat.toDigits 10 n = d :: ds ∧ d ≠ '0' := by
  induction n using Nat.strongRecOn with
  | ind n ih =>
    rcases Nat.lt_or_ge n 10 with hlt | hge
    · refine ⟨_, [], Nat.toDigits_of_lt_base hlt, ?_⟩
      have hdigit : ∀ m < 10, 0 < m → Nat.digitChar m ≠ '0' := by decide
      exact hdigit n hlt hn
    · obtain ⟨d, ds, hds, hd⟩ := ih (n / 10) (Nat.div_lt_self hn (by decide)) (Nat.div_pos hge (by decide))
      exact ⟨d, ds ++ [(n % 10).digitChar], by rw [Nat.toDigits_of_base_le (by decide) hge, hds]; rfl, hd⟩

end Retag.Number

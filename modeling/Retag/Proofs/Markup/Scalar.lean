import Retag.Proofs.Number.Digits
import Retag.Proofs.Results
import Retag.Markup.Outline
import Retag.Markup.Scalar

/-! Scalars written and read again. What is written for a scalar is read, under its tag, as the scalar. -/

namespace Retag

namespace Markup

open Number

variable {cs : List Char}

/-! ### Whole numbers -/

theorem colonParts_eq (h : ∀ x ∈ cs, x ≠ ':') : Form.colonParts cs = [cs] := by
  induction cs with
  | nil => rfl
  | cons c cs ih =>
    rw [Form.colonParts, if_neg (h c List.mem_cons_self), ih fun x hx => h x (List.mem_cons_of_mem _ hx)]

theorem ne_of_isDigit {x y : Char} (h : x.isDigit = true) (hy : y.isDigit = false) : x ≠ y := by
  rintro rfl
  cases hy.symm.trans h

/-- The digits of a number are read as the number. --/
theorem readMagnitude_toDigits {n : Nat} (hlen : (Nat.toDigits 10 n).length ≤ maxDigits) :
    readMagnitude (Nat.toDigits 10 n) = .ok n := by
  rcases Nat.eq_zero_or_pos n with rfl | hn
  · rfl
  · have hdigits : ∀ x ∈ Nat.toDigits 10 n, x.isDigit = true := fun x => isDigit_of_mem_toDigits
    have hvalue : Nat.ofDigitChars 10 (Nat.toDigits 10 n) 0 = n := Nat.ofDigitChars_ten_toDigits
    obtain ⟨d, ds, hds, hd⟩ := toDigits_head hn
    rw [hds] at hdigits hlen hvalue ⊢
    have hread := readInt?_digits hdigits (List.cons_ne_nil d ds) hlen
    rw [hvalue] at hread
    have hparts : Form.colonParts (d :: ds) = [d :: ds] :=
      colonParts_eq fun x hx => ne_of_isDigit (hdigits x hx) (by decide)
    have hmap : [d :: ds].mapM (readBase 10) = .ok [(n : Int)] := by
      simp [readBase, hread]
    unfold readMagnitude
    split
    · rename_i h
      cases h
    · rename_i h
      exact absurd (List.cons.inj h).1 hd
    · rename_i h
      exact absurd (List.cons.inj h).1 hd
    · rename_i h
      exact absurd (List.cons.inj h).1 hd
    · rename_i h
      exact absurd (List.cons.inj h).1 hd
    · simp [hparts, hmap]

theorem length_toDigits_le_iff (n : Nat) {k : Nat} (hk : 0 < k) :
    (Nat.toDigits 10 n).length ≤ k ↔ n < Nat.pow 10 k :=
  Nat.length_toDigits_le_iff (by decide) hk

theorem writeInt?_eq_some {n : Int} {s : String} (h : writeInt? n = some s) :
    s.toList = (if n < 0 then ['-'] else []) ++ Nat.toDigits 10 n.natAbs ∧
      (Nat.toDigits 10 n.natAbs).length ≤ maxDigits := by
  unfold writeInt? at h
  split at h
  · rename_i hlt
    refine ⟨?_, (length_toDigits_le_iff n.natAbs (by decide)).mpr hlt⟩
    rw [← Option.some.inj h, String.toList_ofList]
  · cases h

theorem writeInt?_isSome {n : Int} (h : (Nat.toDigits 10 n.natAbs).length ≤ maxDigits) : ∃ s, writeInt? n = some s := by
  have hlt := (length_toDigits_le_iff n.natAbs (by decide)).mp h
  unfold writeInt?
  rw [if_pos hlt]
  exact ⟨_, rfl⟩

/-- A whole number is read back from its decimal digits. --/
theorem readInt_writeInt {n : Int} {s : String} (h : writeInt? n = some s) : readInt s.toList = .ok n := by
  obtain ⟨hs, hlen⟩ := writeInt?_eq_some h
  have hdigits : ∀ x ∈ Nat.toDigits 10 n.natAbs, x.isDigit = true := fun x => isDigit_of_mem_toDigits
  have hfilter : (Nat.toDigits 10 n.natAbs).filter (· ≠ '_') = Nat.toDigits 10 n.natAbs :=
    List.filter_eq_self.mpr fun x hx => by simpa using ne_of_isDigit (hdigits x hx) (by decide)
  have hempty : (Nat.toDigits 10 n.natAbs).isEmpty = false := by simp
  rw [hs]
  by_cases hneg : n < 0
  · rw [if_pos hneg, readInt, List.filter_append, hfilter]
    have hsign : signOff (['-'].filter (· ≠ '_') ++ Nat.toDigits 10 n.natAbs) =
        .ok (true, Nat.toDigits 10 n.natAbs) := rfl
    rw [hsign, ok_bind]
    have hvalue : -(n.natAbs : Int) = n := by omega
    simp only [readMagnitude_toDigits hlen, ok_bind, if_true, pure_eq_ok, hvalue]
  · rw [if_neg hneg, List.nil_append, readInt, hfilter]
    have hsign : signOff (Nat.toDigits 10 n.natAbs) = .ok (false, Nat.toDigits 10 n.natAbs) := by
      simp only [signOff, hempty, splitSign_digits hdigits]
      rfl
    rw [hsign, ok_bind]
    have hvalue : (n.natAbs : Int) = n := by omega
    simp only [readMagnitude_toDigits hlen, ok_bind, Bool.false_eq_true, if_false, pure_eq_ok, hvalue]

/-! ### Texts -/

@[simp] theorem readText_whole (tag : Tag) (s : String) : readText tag (.whole s) = readScalar tag s := rfl

theorem readText_torn (tag : Tag) (t : Text.Torn) :
    readText tag (.torn t) = if tag = .str then .ok (.torn t) else readScalar tag t.standIn := rfl

end Markup

end Retag

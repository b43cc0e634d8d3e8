import Mathlib.Algebra.Order.Field.Power
import Mathlib.Data.Rat.Cast.Order
import Mathlib.Tactic.FieldSimp
import Mathlib.Tactic.Linarith
import Mathlib.Tactic.Ring
import Retag.Number.Decimal

/-! Rounding to floating-point numbers. Every result has a mantissa of 53 bits, or of fewer at the least exponent; and
    a ratio that is no farther from such a number than half a step is rounded to it. -/

namespace Retag.Number.Binary64

variable {num den m : Nat} {e : Int}

/-- A finite number has a mantissa of 53 bits, or of fewer at the least exponent. --/
def IsRegular : Binary64 → Prop
  | .finite _ m e => minExponent ≤ e ∧ e ≤ maxExponent ∧ m < 2 ^ 53 ∧ (2 ^ 52 ≤ m ∨ e = minExponent)
  | _ => True

/-! ### Powers of two -/

theorem two_zpow_pos (e : Int) : (0 : ℚ) < 2 ^ e :=
  zpow_pos (by norm_num) e

theorem two_zpow_add (e f : Int) : (2 : ℚ) ^ (e + f) = 2 ^ e * 2 ^ f :=
  zpow_add₀ (by norm_num) e f

theorem two_zpow_le {e f : Int} : (2 : ℚ) ^ e ≤ 2 ^ f ↔ e ≤ f :=
  zpow_le_zpow_iff_right₀ (by norm_num)

theorem two_zpow_lt {e f : Int} : (2 : ℚ) ^ e < 2 ^ f ↔ e < f :=
  zpow_lt_zpow_iff_right₀ (by norm_num)

/-- Scaling multiplies a ratio with a power of two. --/
theorem scale_eq (num : Nat) (hden : 0 < den) (e : Int) : 0 < (scale num den e).2 ∧
    ((scale num den e).1 : ℚ) / (scale num den e).2 = num / den * 2 ^ e := by
  have hpos : (0 : ℚ) < den := by exact_mod_cast hden
  unfold scale
  split
  case isTrue he =>
    obtain ⟨k, rfl⟩ := Int.eq_ofNat_of_zero_le he
    refine ⟨hden, ?_⟩
    simp only [Int.toNat_natCast, Nat.pow_eq, Nat.cast_mul, Nat.cast_pow, Nat.cast_ofNat, zpow_natCast]
    ring
  case isFalse he =>
    obtain ⟨k, hk⟩ := Int.eq_ofNat_of_zero_le (show 0 ≤ -e by omega)
    obtain rfl : e = -k := by omega
    refine ⟨Nat.mul_pos hden (Nat.pow_pos (by decide)), ?_⟩
    simp only [neg_neg, Int.toNat_natCast, Nat.pow_eq, Nat.cast_mul, Nat.cast_pow, Nat.cast_ofNat, zpow_neg,
      zpow_natCast]
    field_simp

theorem two_pow_log2_le (hnum : 0 < num) : (2 : ℚ) ^ (num.log2 : Int) ≤ num := by
  rw [zpow_natCast]
  exact_mod_cast Nat.log2_self_le hnum.ne'

theorem lt_two_pow_log2 (num : Nat) : (num : ℚ) < 2 ^ ((num.log2 : Int) + 1) := by
  have : num < 2 ^ (num.log2 + 1) := Nat.lt_log2_self
  exact_mod_cast this

/-- The power of two that is at most a ratio, and less than half as big as the next. --/
theorem floorLog2_spec (hnum : 0 < num) (hden : 0 < den) :
    (2 : ℚ) ^ floorLog2 num den ≤ num / den ∧ (num / den : ℚ) < 2 ^ (floorLog2 num den + 1) := by
  have hpos : (0 : ℚ) < den := by exact_mod_cast hden
  obtain ⟨hd, hscale⟩ := scale_eq num hden (-((num.log2 : Int) - (den.log2 : Int)))
  have hdpos : (0 : ℚ) < (scale num den (-((num.log2 : Int) - (den.log2 : Int)))).2 := by exact_mod_cast hd
  have hlow : (2 : ℚ) ^ ((num.log2 : Int) - (den.log2 : Int) - 1) < num / den := by
    rw [lt_div_iff₀ hpos]
    calc (2 : ℚ) ^ ((num.log2 : Int) - (den.log2 : Int) - 1) * den
        < 2 ^ ((num.log2 : Int) - (den.log2 : Int) - 1) * 2 ^ ((den.log2 : Int) + 1) :=
          mul_lt_mul_of_pos_left (lt_two_pow_log2 den) (two_zpow_pos _)
      _ = 2 ^ (num.log2 : Int) := by
          rw [← two_zpow_add]
          congr 1
          ring
      _ ≤ num := two_pow_log2_le hnum
  have hhigh : (num / den : ℚ) < 2 ^ ((num.log2 : Int) - (den.log2 : Int) + 1) := by
    rw [div_lt_iff₀ hpos]
    calc (num : ℚ) < 2 ^ ((num.log2 : Int) + 1) := lt_two_pow_log2 num
      _ = 2 ^ ((num.log2 : Int) - (den.log2 : Int) + 1) * 2 ^ (den.log2 : Int) := by
          rw [← two_zpow_add]
          congr 1
          ring
      _ ≤ 2 ^ ((num.log2 : Int) - (den.log2 : Int) + 1) * den :=
          mul_le_mul_of_nonneg_left (two_pow_log2_le hden) (two_zpow_pos _).le
  -- The difference of the lengths is right or one too large; one comparison tells which.
  have hcompare : (scale num den (-((num.log2 : Int) - (den.log2 : Int)))).1 <
      (scale num den (-((num.log2 : Int) - (den.log2 : Int)))).2 ↔
      (num / den : ℚ) < 2 ^ ((num.log2 : Int) - (den.log2 : Int)) := by
    rw [← Nat.cast_lt (α := ℚ), ← div_lt_one₀ hdpos, hscale, zpow_neg, ← div_eq_mul_inv,
      div_lt_one₀ (two_zpow_pos _)]
  simp only [floorLog2]
  split
  · rename_i h
    exact ⟨hlow.le, by simpa using hcompare.mp h⟩
  · rename_i h
    exact ⟨not_lt.mp fun h' => h (hcompare.mpr h'), hhigh⟩

/-! ### Quotients -/

/-- A whole number no farther from a quotient than one half is what the quotient is rounded to; at one half it has to
    be even. --/
theorem divNearest_eq (hden : 0 < den) (hlow : 2 * m * den ≤ 2 * num + den) (hhigh : 2 * num ≤ (2 * m + 1) * den)
    (hodd : m % 2 = 1 → 2 * m * den < 2 * num + den ∧ 2 * num < (2 * m + 1) * den) : divNearest num den = m := by
  have hdiv : den * (num / den) + num % den = num := Nat.div_add_mod num den
  have hmod : num % den < den := Nat.mod_lt num hden
  generalize hq : num / den = q at hdiv
  generalize hr : num % den = r at hdiv hmod
  -- The quotient rounded down is `m` or the number before it; the rest decides, and in the middle the parity of `m`.
  have hle : q ≤ m := by
    by_contra hlt
    have : den * (m + 1) ≤ den * q := Nat.mul_le_mul_left _ (by omega)
    nlinarith
  have hge : m ≤ q + 1 := by
    by_contra hlt
    have : den * (q + 2) ≤ den * m := Nat.mul_le_mul_left _ (by omega)
    nlinarith
  simp only [divNearest, hq, hr]
  obtain rfl | rfl : m = q ∨ m = q + 1 := by omega
  · have hhalf : 2 * r ≤ den := by nlinarith
    split
    · rfl
    · rename_i hlt
      rw [if_neg (by omega)]
      have heven : m % 2 ≠ 1 := fun h => by
        have := (hodd h).2
        nlinarith
      omega
  · have hhalf : den ≤ 2 * r := by nlinarith
    rw [if_neg (by omega)]
    split
    · rfl
    · rename_i hlt
      have heven : (q + 1) % 2 ≠ 1 := fun h => by
        have := (hodd h).1
        nlinarith
      omega

/-- A quotient between two whole numbers is rounded to none outside of them. --/
theorem le_divNearest (hden : 0 < den) (h : m * den ≤ num) : m ≤ divNearest num den := by
  have hq : m ≤ num / den := (Nat.le_div_iff_mul_le hden).mpr h
  simp only [divNearest]
  split
  · exact hq
  · split <;> omega

theorem divNearest_le (hden : 0 < den) (h : num ≤ m * den) : divNearest num den ≤ m := by
  have hq : num / den ≤ m := Nat.div_le_of_le_mul (by rwa [Nat.mul_comm])
  have hdiv : den * (num / den) + num % den = num := Nat.div_add_mod num den
  have hzero : num / den = m → num % den = 0 := fun hm => by
    rw [hm] at hdiv
    rw [Nat.mul_comm] at h
    omega
  simp only [divNearest]
  rcases Nat.lt_or_ge (num / den) m with hlt | hge
  · split
    · omega
    · split
      · omega
      · have := Nat.mod_lt (num / den) (show 0 < 2 by decide)
        omega
  · have hm : num / den = m := Nat.le_antisymm hq hge
    rw [hzero hm, Nat.mul_zero, if_pos hden, hm]

/-! ### Rounding -/

/-- The exponent under which a ratio is rounded. --/
def exponentOf (num den : Nat) : Int :=
  max minExponent (floorLog2 num den - 52)

/-- Divided by its power of two, a ratio is less than `2 ^ 53`, and at least `2 ^ 52` above the least exponent. --/
theorem scaled_bounds (hnum : 0 < num) (hden : 0 < den) :
    (num / den : ℚ) * 2 ^ (-exponentOf num den) < 2 ^ 53 ∧
      (exponentOf num den = minExponent ∨ 2 ^ 52 ≤ (num / den : ℚ) * 2 ^ (-exponentOf num den)) := by
  obtain ⟨hlow, hhigh⟩ := floorLog2_spec hnum hden
  refine ⟨?_, ?_⟩
  · calc (num / den : ℚ) * 2 ^ (-exponentOf num den)
        < 2 ^ (floorLog2 num den + 1) * 2 ^ (-exponentOf num den) :=
          mul_lt_mul_of_pos_right hhigh (two_zpow_pos _)
      _ = 2 ^ (floorLog2 num den + 1 + -exponentOf num den) := (two_zpow_add _ _).symm
      _ ≤ 2 ^ (53 : Int) := two_zpow_le.mpr (by unfold exponentOf; omega)
      _ = 2 ^ 53 := by norm_num
  · by_cases he : exponentOf num den = minExponent
    · exact Or.inl he
    · refine Or.inr ?_
      calc (2 : ℚ) ^ 52 = 2 ^ (52 : Int) := by norm_num
        _ = 2 ^ (floorLog2 num den + -exponentOf num den) := by
            congr 1
            unfold exponentOf at he ⊢
            omega
        _ = 2 ^ floorLog2 num den * 2 ^ (-exponentOf num den) := two_zpow_add _ _
        _ ≤ num / den * 2 ^ (-exponentOf num den) := mul_le_mul_of_nonneg_right hlow (two_zpow_pos _).le

/-- A ratio is rounded to a regular number. --/
theorem isRegular_ofRatio (negative : Bool) (hden : 0 < den) : (ofRatio negative num den).IsRegular := by
  rcases Nat.eq_zero_or_pos num with rfl | hnum
  · simp [ofRatio, zero, IsRegular, minExponent, maxExponent]
  · obtain ⟨hhigh, hlow⟩ := scaled_bounds hnum hden
    obtain ⟨hd, hscale⟩ := scale_eq num hden (-exponentOf num den)
    have hdpos : (0 : ℚ) < (scale num den (-exponentOf num den)).2 := by exact_mod_cast hd
    rw [← hscale] at hhigh hlow
    have hmin : minExponent ≤ exponentOf num den := le_max_left _ _
    have hle : divNearest (scale num den (-exponentOf num den)).1 (scale num den (-exponentOf num den)).2 ≤ 2 ^ 53 := by
      refine divNearest_le hd ?_
      rw [div_lt_iff₀ hdpos] at hhigh
      exact_mod_cast hhigh.le
    have hge : exponentOf num den = minExponent ∨
        2 ^ 52 ≤ divNearest (scale num den (-exponentOf num den)).1 (scale num den (-exponentOf num den)).2 := by
      refine hlow.imp_right fun hlow => le_divNearest hd ?_
      rw [le_div_iff₀ hdpos] at hlow
      exact_mod_cast hlow
    unfold ofRatio
    rw [if_neg hnum.ne']
    change IsRegular (
      let r := if divNearest (scale num den (-exponentOf num den)).1 (scale num den (-exponentOf num den)).2 = Nat.pow 2 53
        then (Nat.pow 2 52, exponentOf num den + 1)
        else (divNearest (scale num den (-exponentOf num den)).1 (scale num den (-exponentOf num den)).2,
          exponentOf num den)
      if maxExponent < r.2 then .infinity negative else .finite negative r.1 r.2)
    generalize divNearest (scale num den (-exponentOf num den)).1 (scale num den (-exponentOf num den)).2 = k at hle hge
    generalize exponentOf num den = e at hmin hge
    -- Rounding up to the next power of two is the one case in which the exponent grows.
    by_cases hk : k = 2 ^ 53
    · simp only [Nat.pow_eq, hk, if_true]
      split
      · trivial
      · rename_i hmax
        exact ⟨by omega, by omega, by decide, Or.inl (by decide)⟩
    · simp only [Nat.pow_eq, hk, if_false]
      split
      · trivial
      · rename_i hmax
        exact ⟨hmin, by omega, by omega, hge.symm⟩

/-- The reals that a mantissa and an exponent stand for: those that are not nearer to another number. The ends of the
    interval belong to it if the mantissa is even. --/
def Within (m : Nat) (e : Int) (q : ℚ) : Prop :=
  (4 * m - (quarterSteps m e).1 : ℚ) * 2 ^ (e - 2) ≤ q ∧ q ≤ (4 * m + (quarterSteps m e).2 : ℚ) * 2 ^ (e - 2) ∧
    (m % 2 = 1 → (4 * m - (quarterSteps m e).1 : ℚ) * 2 ^ (e - 2) < q ∧
      q < (4 * m + (quarterSteps m e).2 : ℚ) * 2 ^ (e - 2))

theorem exponentOf_eq (hnum : 0 < num) (hden : 0 < den) (hmin : minExponent ≤ e)
    (hlow : e = minExponent ∨ 2 ^ 52 ≤ (num / den : ℚ) * 2 ^ (-e)) (hhigh : (num / den : ℚ) * 2 ^ (-e) < 2 ^ 53) :
    exponentOf num den = e := by
  obtain ⟨hfloor, hceil⟩ := floorLog2_spec hnum hden
  have hshift : ∀ k : Int, (2 : ℚ) ^ (k + e) * 2 ^ (-e) = 2 ^ k := fun k => by
    rw [← two_zpow_add]
    congr 1
    ring
  have hle : floorLog2 num den < 53 + e := by
    refine two_zpow_lt.mp (lt_of_le_of_lt hfloor (lt_of_mul_lt_mul_right ?_ (two_zpow_pos (-e)).le))
    rw [hshift]
    exact_mod_cast hhigh
  rcases hlow with rfl | hlow
  · unfold exponentOf
    omega
  · have hge : 52 + e < floorLog2 num den + 1 := by
      refine two_zpow_lt.mp (lt_of_le_of_lt (le_of_mul_le_mul_right ?_ (two_zpow_pos (-e))) hceil)
      rw [hshift]
      exact_mod_cast hlow
    unfold exponentOf
    omega

/-- What a ratio is rounded to, given the nearest whole number under its exponent. --/
theorem ofRatio_eq (negative : Bool) (hnum : 0 < num) (he : exponentOf num den = e)
    (hm : divNearest (scale num den (-e)).1 (scale num den (-e)).2 = m) :
    ofRatio negative num den =
      if m = 2 ^ 53 then if maxExponent < e + 1 then .infinity negative else .finite negative (2 ^ 52) (e + 1)
      else if maxExponent < e then .infinity negative else .finite negative m e := by
  unfold exponentOf at he
  unfold ofRatio
  rw [if_neg hnum.ne']
  simp only [he, hm, Nat.pow_eq]
  by_cases hk : m = 2 ^ 53
  · simp only [hk, if_true]
  · simp only [hk, if_false]

/-- The same in units of the power of two. --/
theorem Within.scaled {q : ℚ} (h : Within m e q) :
    (m - (quarterSteps m e).1 / 4 : ℚ) ≤ q * 2 ^ (-e) ∧ q * 2 ^ (-e) ≤ m + 1 / 2 ∧
      (m % 2 = 1 → (m - (quarterSteps m e).1 / 4 : ℚ) < q * 2 ^ (-e) ∧ q * 2 ^ (-e) < m + 1 / 2) := by
  obtain ⟨hlow, hhigh, hodd⟩ := h
  have hunit : ∀ x : ℚ, x * 2 ^ (e - 2) * 2 ^ (-e) = x / 4 := fun x => by
    rw [mul_assoc, ← two_zpow_add, show e - 2 + -e = -2 by ring, zpow_neg]
    norm_num [div_eq_mul_inv]
  have hpos := two_zpow_pos (-e)
  have hdown : (m - (quarterSteps m e).1 / 4 : ℚ) = (4 * m - (quarterSteps m e).1) * 2 ^ (e - 2) * 2 ^ (-e) := by
    rw [hunit]
    ring
  have hup : (m + 1 / 2 : ℚ) = (4 * m + (quarterSteps m e).2) * 2 ^ (e - 2) * 2 ^ (-e) := by
    rw [hunit]
    simp only [quarterSteps, Nat.cast_ofNat]
    ring
  rw [hdown, hup]
  exact ⟨mul_le_mul_of_nonneg_right hlow hpos.le, mul_le_mul_of_nonneg_right hhigh hpos.le, fun h =>
    ⟨mul_lt_mul_of_pos_right (hodd h).1 hpos, mul_lt_mul_of_pos_right (hodd h).2 hpos⟩⟩

/-- What the nearest whole number to a scaled ratio is. --/
theorem divNearest_scale (hden : 0 < den) (hlow : (m - 1 / 2 : ℚ) ≤ num / den * 2 ^ e)
    (hhigh : (num / den * 2 ^ e : ℚ) ≤ m + 1 / 2)
    (hodd : m % 2 = 1 → (m - 1 / 2 : ℚ) < num / den * 2 ^ e ∧ (num / den * 2 ^ e : ℚ) < m + 1 / 2) :
    divNearest (scale num den e).1 (scale num den e).2 = m := by
  obtain ⟨hd, hscale⟩ := scale_eq num hden e
  have hdpos : (0 : ℚ) < (scale num den e).2 := by exact_mod_cast hd
  rw [← hscale] at hlow hhigh hodd
  generalize (scale num den e).1 = n at *
  generalize (scale num den e).2 = d at *
  rw [le_div_iff₀ hdpos] at hlow
  rw [div_le_iff₀ hdpos] at hhigh
  rw [lt_div_iff₀ hdpos, div_lt_iff₀ hdpos] at hodd
  refine divNearest_eq hd ?_ ?_ fun h => ⟨?_, ?_⟩
  · have : (2 * m * d : ℚ) ≤ 2 * n + d := by linarith
    exact_mod_cast this
  · have : (2 * n : ℚ) ≤ (2 * m + 1) * d := by linarith
    exact_mod_cast this
  · have : (2 * m * d : ℚ) < 2 * n + d := by linarith [(hodd h).1]
    exact_mod_cast this
  · have : (2 * n : ℚ) < (2 * m + 1) * d := by linarith [(hodd h).2]
    exact_mod_cast this

/-- A ratio that a number stands for is rounded to it. --/
theorem ofRatio_of_within {negative : Bool} (hden : 0 < den) (hr : (Binary64.finite negative m e).IsRegular)
    (hm : 0 < m) (h : Within m e (num / den)) : ofRatio negative num den = .finite negative m e := by
  obtain ⟨hmin, hmax, hlt, hnormal⟩ := hr
  obtain ⟨hlow, hhigh, hodd⟩ := h.scaled
  have hmpos : (1 : ℚ) ≤ m := by exact_mod_cast hm
  have hmlt : (m : ℚ) + 1 ≤ 2 ^ 53 := by exact_mod_cast hlt
  have hdown : ((quarterSteps m e).1 : ℚ) ≤ 2 := by
    simp only [quarterSteps]
    split <;> norm_num
  have hnum : 0 < num := by
    rcases Nat.eq_zero_or_pos num with rfl | hnum
    · simp only [Nat.cast_zero, zero_div, zero_mul] at hlow
      linarith
    · exact hnum
  by_cases hsame : e = minExponent ∨ 2 ^ 52 ≤ (num / den : ℚ) * 2 ^ (-e)
  · have he : exponentOf num den = e := exponentOf_eq hnum hden hmin hsame (by linarith)
    have hk := divNearest_scale hden (by linarith) hhigh fun h => ⟨by linarith [(hodd h).1], (hodd h).2⟩
    rw [ofRatio_eq negative hnum he hk, if_neg (by omega), if_neg (by omega)]
  · -- The ratio is below the least mantissa of this exponent, and is rounded up to it from the exponent below.
    obtain ⟨hne, hbelow⟩ := not_or.mp hsame
    rw [not_le] at hbelow
    have hm52 : m = 2 ^ 52 := by
      have : (m : ℚ) < 2 ^ 52 + 1 := by linarith
      have : m < 2 ^ 52 + 1 := by exact_mod_cast this
      omega
    have hquarter : (quarterSteps m e).1 = 1 := by
      have hlt := lt_of_le_of_ne hmin (Ne.symm hne)
      simp [quarterSteps, hm52, hlt]
    have hdouble : (num / den : ℚ) * 2 ^ (-(e - 1)) = 2 * (num / den * 2 ^ (-e)) := by
      rw [show -(e - 1) = 1 + -e by ring, two_zpow_add]
      ring
    rw [hquarter, hm52] at hlow
    norm_num at hlow hbelow
    have he : exponentOf num den = e - 1 := by
      refine exponentOf_eq hnum hden (by omega) (Or.inr ?_) ?_ <;> rw [hdouble] <;> norm_num <;> linarith
    have hk : divNearest (scale num den (-(e - 1))).1 (scale num den (-(e - 1))).2 = 2 ^ 53 := by
      refine divNearest_scale hden ?_ ?_ fun h => absurd h (by decide) <;> rw [hdouble] <;> norm_num <;> linarith
    rw [ofRatio_eq negative hnum he hk, if_pos rfl, if_neg (by omega), hm52]
    simp

end Retag.Number.Binary64

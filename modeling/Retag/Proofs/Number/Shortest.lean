import Retag.Proofs.Number.Rounding

/-! Shortest decimals. Whatever decimal is chosen for a number, the number stands for it, so it is rounded to the
    number; and with seventeen digits there always is one. -/

namespace Retag.Number.Binary64

variable {num den m c : Nat} {e step : Int} {d : Decimal}

/-! ### Powers of ten -/

theorem ten_zpow_pos (e : Int) : (0 : ℚ) < 10 ^ e :=
  zpow_pos (by norm_num) e

theorem ten_zpow_add (e f : Int) : (10 : ℚ) ^ (e + f) = 10 ^ e * 10 ^ f :=
  zpow_add₀ (by norm_num) e f

/-- Scaling divides a ratio by a power of ten. --/
theorem scaleTen_eq (num : Nat) (hden : 0 < den) (e : Int) : 0 < (scaleTen num den e).2 ∧
    ((scaleTen num den e).1 : ℚ) / (scaleTen num den e).2 = num / den / 10 ^ e := by
  have hpos : (0 : ℚ) < den := by exact_mod_cast hden
  unfold scaleTen
  split
  case isTrue he =>
    obtain ⟨k, rfl⟩ := Int.eq_ofNat_of_zero_le he
    refine ⟨Nat.mul_pos hden (Nat.pow_pos (by decide)), ?_⟩
    simp only [Int.toNat_natCast, Nat.pow_eq, Nat.cast_mul, Nat.cast_pow, Nat.cast_ofNat, zpow_natCast]
    field_simp
  case isFalse he =>
    obtain ⟨k, hk⟩ := Int.eq_ofNat_of_zero_le (show 0 ≤ -e by omega)
    obtain rfl : e = -k := by omega
    refine ⟨hden, ?_⟩
    simp only [neg_neg, Int.toNat_natCast, Nat.pow_eq, Nat.cast_mul, Nat.cast_pow, Nat.cast_ofNat, zpow_neg,
      zpow_natCast]
    field_simp

theorem digitCount_le_iff {n k : Nat} (hk : 0 < k) : digitCount n ≤ k ↔ n < 10 ^ k :=
  Nat.length_toDigits_le_iff (by decide) hk

theorem digitCount_pos (n : Nat) : 0 < digitCount n :=
  List.length_pos_iff.mpr Nat.toDigits_ne_nil

theorem lt_ten_pow_digitCount (n : Nat) : n < 10 ^ digitCount n :=
  (digitCount_le_iff (digitCount_pos n)).mp (Nat.le_refl _)

theorem ten_pow_digitCount_le {n : Nat} (hn : 0 < n) : 10 ^ (digitCount n - 1) ≤ n := by
  rcases Nat.eq_zero_or_pos (digitCount n - 1) with h | h
  · rw [h]
    exact hn
  · by_contra hlt
    have := (digitCount_le_iff h).mpr (Nat.lt_of_not_le hlt)
    have := digitCount_pos n
    omega

/-- The position of the point is not too far to the right. --/
theorem le_pointPosition (hnum : 0 < num) (hden : 0 < den) : (10 : ℚ) ^ (pointPosition num den - 1) ≤ num / den := by
  have hnpos : (0 : ℚ) < num := by exact_mod_cast hnum
  have hdpos : (0 : ℚ) < den := by exact_mod_cast hden
  unfold pointPosition
  split
  case isTrue hle =>
    have hq : 0 < num / den := Nat.div_pos hle hden
    have hcast : ((digitCount (num / den) : Int) - 1) = ((digitCount (num / den) - 1 : Nat) : Int) := by
      have := digitCount_pos (num / den)
      omega
    rw [hcast, zpow_natCast, le_div_iff₀ hdpos]
    have hle' : 10 ^ (digitCount (num / den) - 1) * den ≤ num :=
      Nat.le_trans (Nat.mul_le_mul_right den (ten_pow_digitCount_le hq)) (Nat.div_mul_le_self num den)
    exact_mod_cast hle'
  case isFalse hlt =>
    -- The inverse of the ratio, rounded up, has its power of ten above it.
    have hceil : den ≤ ((den + num - 1) / num) * num := by
      have hdiv : num * ((den + num - 1) / num) + (den + num - 1) % num = den + num - 1 := Nat.div_add_mod _ _
      have hmod : (den + num - 1) % num < num := Nat.mod_lt _ hnum
      rw [Nat.mul_comm]
      omega
    have hone : 1 ≤ (den + num - 1) / num := (Nat.le_div_iff_mul_le hnum).mpr (by omega)
    have hlog : (den + num - 1) / num ≤ 10 ^ digitCount ((den + num - 1) / num - 1) := by
      have := lt_ten_pow_digitCount ((den + num - 1) / num - 1)
      omega
    have hle : den ≤ 10 ^ digitCount ((den + num - 1) / num - 1) * num :=
      Nat.le_trans hceil (Nat.mul_le_mul_right num hlog)
    have hle' : (den : ℚ) ≤ 10 ^ digitCount ((den + num - 1) / num - 1) * num := by exact_mod_cast hle
    rw [show (1 : Int) - (digitCount ((den + num - 1) / num - 1) : Int) - 1 =
      -(digitCount ((den + num - 1) / num - 1) : Int) by ring, zpow_neg, zpow_natCast, le_div_iff₀ hdpos,
      inv_mul_le_iff₀ (by positivity)]
    exact hle'

/-! ### Neighbours -/

/-- The rational number that a decimal writes. --/
def Decimal.value (d : Decimal) : ℚ :=
  d.digits * 10 ^ d.exponent

/-- The grid on which the neighbours of a number stand, as a ratio of quarters of its unit to the step. --/
def grid (e step : Int) : Nat × Nat :=
  scaleTen (scale 1 1 (e - 2)).1 (scale 1 1 (e - 2)).2 step

theorem grid_eq (e step : Int) : 0 < (grid e step).2 ∧
    ((grid e step).1 : ℚ) / (grid e step).2 = 2 ^ (e - 2) / 10 ^ step := by
  obtain ⟨hd, hscale⟩ := scale_eq 1 Nat.one_pos (e - 2)
  obtain ⟨hd', hscale'⟩ := scaleTen_eq (scale 1 1 (e - 2)).1 hd step
  refine ⟨hd', ?_⟩
  rw [grid, hscale', hscale]
  simp

/-- Whether a number of steps reads back as a number. --/
def Reads (m : Nat) (e step : Int) (c : Nat) : Bool :=
  let low := (4 * m - (quarterSteps m e).1) * (grid e step).1
  let high := (4 * m + (quarterSteps m e).2) * (grid e step).1
  if m % 2 = 0 then low ≤ c * (grid e step).2 && c * (grid e step).2 ≤ high
  else low < c * (grid e step).2 && c * (grid e step).2 < high

theorem reads_iff (hm : 0 < m) : Reads m e step c = true ↔ Within m e (c * 10 ^ step) := by
  obtain ⟨hd, hgrid⟩ := grid_eq e step
  have hdpos : (0 : ℚ) < (grid e step).2 := by exact_mod_cast hd
  have hten := ten_zpow_pos step
  have hdown : (quarterSteps m e).1 ≤ 4 * m := by
    simp only [quarterSteps]
    split <;> omega
  -- A bound in quarters of the unit, as a comparison of whole numbers.
  have hle : ∀ k : Nat, ((k : ℚ) * 2 ^ (e - 2) ≤ c * 10 ^ step ↔ k * (grid e step).1 ≤ c * (grid e step).2) ∧
      ((c : ℚ) * 10 ^ step ≤ k * 2 ^ (e - 2) ↔ c * (grid e step).2 ≤ k * (grid e step).1) := fun k => by
    have hk : (k : ℚ) * 2 ^ (e - 2) = k * (grid e step).1 / (grid e step).2 * 10 ^ step := by
      rw [mul_div_assoc, hgrid]
      field_simp
    rw [hk, mul_le_mul_iff_left₀ hten, mul_le_mul_iff_left₀ hten, div_le_iff₀ hdpos, le_div_iff₀ hdpos]
    exact ⟨by exact_mod_cast Iff.rfl, by exact_mod_cast Iff.rfl⟩
  have hlow := hle (4 * m - (quarterSteps m e).1)
  have hhigh := hle (4 * m + (quarterSteps m e).2)
  rw [Nat.cast_sub hdown, Nat.cast_mul, Nat.cast_ofNat] at hlow
  rw [Nat.cast_add, Nat.cast_mul, Nat.cast_ofNat] at hhigh
  unfold Within Reads
  rw [hlow.1, hhigh.2, ← not_le, ← not_le, hlow.2, hhigh.1]
  rcases Nat.mod_two_eq_zero_or_one m with h | h
  · simp [h]
  · simp only [h, Nat.one_ne_zero, if_false, Bool.and_eq_true, decide_eq_true_eq, forall_const]
    omega

/-- A neighbour is the number of steps below, or one step more; and it is found if one of the two reads back. --/
theorem neighbour?_cases (m : Nat) (e step : Int) : ∃ below : Nat,
    below * (grid e step).2 ≤ 4 * m * (grid e step).1 ∧ 4 * m * (grid e step).1 < (below + 1) * (grid e step).2 ∧
    (∀ d, neighbour? m e step = some d → d.exponent = step ∧ Reads m e step d.digits = true) ∧
    (Reads m e step below = true ∨ Reads m e step (below + 1) = true → (neighbour? m e step).isSome) := by
  obtain ⟨hd, -⟩ := grid_eq e step
  -- Of the distances only their comparison matters, so both are left open.
  have hcases : ∃ below twice : Nat, below = 4 * m * (grid e step).1 / (grid e step).2 ∧ neighbour? m e step =
      if Reads m e step below then
        if Reads m e step (below + 1) then
          if twice < (grid e step).2 || (twice = (grid e step).2 && below % 2 = 0) then some ⟨below, step⟩
          else some ⟨below + 1, step⟩
        else some ⟨below, step⟩
      else if Reads m e step (below + 1) then some ⟨below + 1, step⟩ else none := ⟨_, _, rfl, rfl⟩
  obtain ⟨below, twice, hbelow, hn⟩ := hcases
  refine ⟨below, ?_, ?_, fun d h => ?_, fun h => ?_⟩
  · rw [hbelow]
    exact Nat.div_mul_le_self _ _
  · rw [hbelow]
    exact Nat.lt_mul_of_div_lt (Nat.lt_succ_self _) hd
  · rw [hn] at h
    split at h
    · rename_i hr
      split at h
      · rename_i hr'
        split at h <;> cases h <;> exact ⟨rfl, by assumption⟩
      · cases h
        exact ⟨rfl, hr⟩
    · split at h
      · rename_i hr'
        cases h
        exact ⟨rfl, hr'⟩
      · cases h
  · rw [hn]
    split
    · split
      · split <;> rfl
      · rfl
    · rename_i hr
      rw [if_pos (h.resolve_left hr)]
      rfl

/-- On a grid whose step is small enough there is a neighbour that reads back. --/
theorem neighbour?_isSome (hm : 0 < m) (h : 2 * (10 : ℚ) ^ step < (quarterSteps m e).1 * 2 ^ e) :
    (neighbour? m e step).isSome := by
  obtain ⟨below, hle, hlt, -, hsome⟩ := neighbour?_cases m e step
  obtain ⟨hd, hgrid⟩ := grid_eq e step
  have hdpos : (0 : ℚ) < (grid e step).2 := by exact_mod_cast hd
  have hten := ten_zpow_pos step
  have htwo := two_zpow_pos (e - 2)
  have hunit : (2 : ℚ) ^ e = 4 * 2 ^ (e - 2) := by
    rw [show e = 2 + (e - 2) by ring, two_zpow_add]
    norm_num
  have hquarters : ∀ k : ℚ, k * (grid e step).1 = k * 2 ^ (e - 2) / 10 ^ step * (grid e step).2 := fun k => by
    rw [mul_div_assoc, ← hgrid]
    field_simp
  have hbelow : (below : ℚ) * 10 ^ step ≤ 4 * m * 2 ^ (e - 2) := by
    have : (below * (grid e step).2 : ℚ) ≤ 4 * m * (grid e step).1 := by exact_mod_cast hle
    rw [hquarters, mul_le_mul_iff_left₀ hdpos, le_div_iff₀ hten] at this
    exact this
  have habove : (4 * m * 2 ^ (e - 2) : ℚ) < (below + 1) * 10 ^ step := by
    have : (4 * m * (grid e step).1 : ℚ) < (below + 1) * (grid e step).2 := by exact_mod_cast hlt
    rw [hquarters, mul_lt_mul_iff_left₀ hdpos, div_lt_iff₀ hten] at this
    exact this
  have hdown : ((quarterSteps m e).1 : ℚ) ≤ (quarterSteps m e).2 := by
    simp only [quarterSteps]
    split <;> norm_num
  refine hsome ?_
  rw [reads_iff hm, reads_iff hm]
  rw [hunit] at h
  -- The nearer of the two is less than half a step away.
  rcases le_total ((4 * m * 2 ^ (e - 2) : ℚ)) ((below + 1 / 2) * 10 ^ step) with hhalf | hhalf
  · refine Or.inl ⟨?_, ?_, fun _ => ⟨?_, ?_⟩⟩ <;> nlinarith
  · refine Or.inr ⟨?_, ?_, fun _ => ⟨?_, ?_⟩⟩ <;> push_cast <;> nlinarith

/-! ### The shortest decimal -/

/-- The first hit among a number of tries is found. --/
theorem shortestFrom_spec (k : Int) : ∀ tries count : Nat, (∃ j < tries, (neighbour? m e (k - (count + j : Nat))).isSome) →
    ∃ step, neighbour? m e step = some (shortestFrom m e k tries count)
  | 0, _, ⟨_, hj, _⟩ => absurd hj (Nat.not_lt_zero _)
  | tries + 1, count, ⟨j, hj, hsome⟩ => by
    rw [shortestFrom]
    cases hn : neighbour? m e (k - count) with
    | some d => exact ⟨_, hn⟩
    | none =>
      refine shortestFrom_spec k tries (count + 1) ?_
      cases j with
      | zero =>
        rw [Nat.add_zero, hn] at hsome
        cases hsome
      | succ j => exact ⟨j, Nat.lt_of_succ_lt_succ hj, by rwa [Nat.add_right_comm]⟩

/-- A number stands for its shortest decimal. --/
theorem within_shortest {negative : Bool} (hr : (Binary64.finite negative m e).IsRegular) (hm : 0 < m) :
    Within m e (shortest m e).value := by
  obtain ⟨-, -, hlt, -⟩ := hr
  obtain ⟨hd, hscale⟩ := scale_eq m Nat.one_pos e
  have hnum : 0 < (scale m 1 e).1 := by
    rcases Nat.eq_zero_or_pos (scale m 1 e).1 with h | h
    · rw [h] at hscale
      have hmpos : (0 : ℚ) < m := by exact_mod_cast hm
      have := mul_pos hmpos (two_zpow_pos e)
      simp only [Nat.cast_zero, zero_div, Nat.cast_one, div_one] at hscale
      linarith
    · exact h
  have hpoint := le_pointPosition hnum hd
  rw [hscale, Nat.cast_one, div_one] at hpoint
  have hsome : (neighbour? m e (pointPosition (scale m 1 e).1 (scale m 1 e).2 - (1 + 16 : Nat))).isSome := by
    refine neighbour?_isSome hm ?_
    have hstep : (10 : ℚ) ^ (pointPosition (scale m 1 e).1 (scale m 1 e).2 - (1 + 16 : Nat)) =
        10 ^ (pointPosition (scale m 1 e).1 (scale m 1 e).2 - 1) / 10 ^ 16 := by
      rw [show pointPosition (scale m 1 e).1 (scale m 1 e).2 - ((1 + 16 : Nat) : Int) =
        pointPosition (scale m 1 e).1 (scale m 1 e).2 - 1 + -16 by push_cast; ring, ten_zpow_add, zpow_neg]
      norm_num [div_eq_mul_inv]
    -- Seventeen digits are always enough: their grid is finer than the interval of the number.
    have hdown : 2 * m < (quarterSteps m e).1 * 10 ^ 16 := by
      simp only [quarterSteps]
      split
      · rename_i h
        have hm52 : m = 2 ^ 52 := by simp at h; exact h.1
        rw [hm52]
        norm_num
      · omega
    have hdown' : (2 * m : ℚ) < (quarterSteps m e).1 * 10 ^ 16 := by exact_mod_cast hdown
    have htwo := two_zpow_pos e
    rw [hstep]
    calc (2 * (10 ^ (pointPosition (scale m 1 e).1 (scale m 1 e).2 - 1) / 10 ^ 16) : ℚ)
        ≤ 2 * (m * 2 ^ e / 10 ^ 16) := by gcongr
      _ = 2 * m * 2 ^ e / 10 ^ 16 := by ring
      _ < (quarterSteps m e).1 * 10 ^ 16 * 2 ^ e / 10 ^ 16 := by gcongr
      _ = (quarterSteps m e).1 * 2 ^ e := by ring
  obtain ⟨step, hstep⟩ := shortestFrom_spec _ 17 1 ⟨16, by decide, hsome⟩
  obtain ⟨-, -, -, hspec, -⟩ := neighbour?_cases m e step
  obtain ⟨hexp, hreads⟩ := hspec _ hstep
  have hwithin := (reads_iff hm).mp hreads
  rw [← hexp] at hwithin
  exact hwithin

end Retag.Number.Binary64

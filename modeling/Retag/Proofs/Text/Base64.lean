import Retag.Text.Base64

/-! Bytes written in base 64 and read again. A row of whole groups of three leaves the reader where it was; any other row
    ends in a padded group, which ends the reading, so only the last line has one. -/

namespace Retag.Text.Base64

variable {bs : List UInt8} {cs : List Char}

theorem value?_digit {n : Nat} (h : n < 64) : value? (digit n) = some n ∧ digit n ≠ '=' := by
  have hall : ∀ n < 64, value? (digit n) = some n ∧ digit n ≠ '=' := by decide
  exact hall n h

theorem decodeFrom_digit {n : Nat} (h : n < 64) (g : Group) :
    decodeFrom g (digit n :: cs) = match g.position with
      | 0 => decodeFrom ⟨1, n, 0⟩ cs
      | 1 => (decodeFrom ⟨2, n % 16, 0⟩ cs).map (UInt8.ofNat (g.left * 4 + n / 16) :: ·)
      | 2 => (decodeFrom ⟨3, n % 4, 0⟩ cs).map (UInt8.ofNat (g.left * 16 + n / 4) :: ·)
      | _ => (decodeFrom ⟨0, 0, 0⟩ cs).map (UInt8.ofNat (g.left * 64 + n) :: ·) := by
  obtain ⟨hvalue, hne⟩ := value?_digit h
  rcases hposition : g.position with _ | _ | _ | _ <;> simp only [decodeFrom, if_neg hne, hvalue, hposition]

theorem ofNat_eq {a : UInt8} {n : Nat} (h : n = a.toNat) : UInt8.ofNat n = a := by
  rw [h, UInt8.ofNat_toNat]

/-- The first digit of a group, and the second one, give the first byte. --/
theorem decodeFrom_first (a : UInt8) {n : Nat} (hn : n < 16) :
    decodeFrom {} (digit (a.toNat / 4) :: digit (a.toNat % 4 * 16 + n) :: cs) =
      (decodeFrom ⟨2, n, 0⟩ cs).map (a :: ·) := by
  have ha := UInt8.toNat_lt a
  rw [decodeFrom_digit (by omega)]
  simp only
  rw [decodeFrom_digit (by omega)]
  simp only
  rw [show (a.toNat % 4 * 16 + n) % 16 = n by omega,
    ofNat_eq (a := a) (show a.toNat / 4 * 4 + (a.toNat % 4 * 16 + n) / 16 = a.toNat by omega)]

/-- The third digit gives the second byte, with what the second digit left. --/
theorem decodeFrom_second (b : UInt8) {n : Nat} (hn : n < 4) :
    decodeFrom ⟨2, b.toNat / 16, 0⟩ (digit (b.toNat % 16 * 4 + n) :: cs) = (decodeFrom ⟨3, n, 0⟩ cs).map (b :: ·) := by
  have hb := UInt8.toNat_lt b
  rw [decodeFrom_digit (by omega)]
  simp only
  rw [show (b.toNat % 16 * 4 + n) % 4 = n by omega,
    ofNat_eq (a := b) (show b.toNat / 16 * 16 + (b.toNat % 16 * 4 + n) / 4 = b.toNat by omega)]

/-- The fourth digit gives the third byte, and ends the group. --/
theorem decodeFrom_third (c : UInt8) :
    decodeFrom ⟨3, c.toNat / 64, 0⟩ (digit (c.toNat % 64) :: cs) = (decodeFrom {} cs).map (c :: ·) := by
  have hc := UInt8.toNat_lt c
  rw [decodeFrom_digit (by omega)]
  simp only
  rw [ofNat_eq (a := c) (show c.toNat / 64 * 64 + c.toNat % 64 = c.toNat by omega)]

/-- A row of bytes is read from its groups. Unless they are whole, nothing behind them counts. --/
theorem decodeFrom_encodeGroups (bs : List UInt8) (cs : List Char) : decodeFrom {} (encodeGroups bs ++ cs) =
    if bs.length % 3 = 0 then (decodeFrom {} cs).map (bs ++ ·) else some bs := by
  induction bs using encodeGroups.induct with
  | case1 => simp [encodeGroups]
  | case2 a =>
    have hfirst := @decodeFrom_first ('=' :: '=' :: cs) a 0 (by decide)
    rw [Nat.add_zero] at hfirst
    exact hfirst
  | case3 a b =>
    have hb := UInt8.toNat_lt b
    have hfirst := @decodeFrom_first (digit (b.toNat % 16 * 4) :: '=' :: cs) a (b.toNat / 16) (by omega)
    have hsecond := @decodeFrom_second ('=' :: cs) b 0 (by decide)
    rw [Nat.add_zero] at hsecond
    rw [hsecond] at hfirst
    exact hfirst
  | case4 a b c rest ih =>
    have hb := UInt8.toNat_lt b
    have hc := UInt8.toNat_lt c
    simp only [encodeGroups, List.cons_append]
    rw [decodeFrom_first a (by omega), decodeFrom_second b (by omega), decodeFrom_third c, ih]
    have hlen : (a :: b :: c :: rest).length % 3 = rest.length % 3 := by
      simp only [List.length_cons]
      omega
    rw [hlen]
    split <;> simp [Option.map_map, Function.comp_def]

theorem encodeLines_nil : encodeLines [] = [] := by
  rw [encodeLines]
  rfl

theorem encodeLines_of_ne_nil (h : bs ≠ []) :
    encodeLines bs = encodeGroups (bs.take lineBytes) ++ '\n' :: encodeLines (bs.drop lineBytes) := by
  rw [encodeLines, if_neg (by simpa using h)]

/-- Bytes are read from the lines that are written for them. --/
theorem decode?_encodeLines (bs : List UInt8) : decode? (encodeLines bs) = some bs := by
  induction bs using encodeLines.induct with
  | case1 bs h =>
    obtain rfl : bs = [] := by simpa using h
    rw [encodeLines_nil]
    rfl
  | case2 bs h ih =>
    have hne : bs ≠ [] := by simpa using h
    have hbreak : ∀ cs, decodeFrom {} ('\n' :: cs) = decodeFrom {} cs := fun cs => rfl
    rw [decode?, encodeLines_of_ne_nil hne, decodeFrom_encodeGroups, hbreak]
    rw [decode?] at ih
    rw [ih, Option.map_some, List.take_append_drop]
    split
    · rfl
    · -- Only the last line is not made of whole groups.
      rename_i hgroups
      rcases Nat.le_total bs.length lineBytes with hlen | hlen
      · rw [List.take_of_length_le hlen]
      · rw [List.length_take, Nat.min_eq_left hlen] at hgroups
        exact absurd rfl hgroups

/-! ### The characters of the lines -/

/-- A character that base 64 is written with. --/
def IsDigit (c : Char) : Prop :=
  c = '=' ∨ ∃ n < 64, c = digit n

theorem isDigit_digit {n : Nat} (h : n < 64) : IsDigit (digit n) :=
  .inr ⟨n, h, rfl⟩

theorem isDigit_of_mem_encodeGroups {c : Char} (h : c ∈ encodeGroups bs) : IsDigit c := by
  induction bs using encodeGroups.induct with
  | case1 => cases h
  | case2 a =>
    have ha := UInt8.toNat_lt a
    simp only [encodeGroups, List.mem_cons, List.not_mem_nil, or_false] at h
    rcases h with rfl | rfl | rfl | rfl
    · exact isDigit_digit (by omega)
    · exact isDigit_digit (by omega)
    · exact .inl rfl
    · exact .inl rfl
  | case3 a b =>
    have ha := UInt8.toNat_lt a
    have hb := UInt8.toNat_lt b
    simp only [encodeGroups, List.mem_cons, List.not_mem_nil, or_false] at h
    rcases h with rfl | rfl | rfl | rfl
    · exact isDigit_digit (by omega)
    · exact isDigit_digit (by omega)
    · exact isDigit_digit (by omega)
    · exact .inl rfl
  | case4 a b c' rest ih =>
    have ha := UInt8.toNat_lt a
    have hb := UInt8.toNat_lt b
    have hc := UInt8.toNat_lt c'
    simp only [encodeGroups, List.mem_cons] at h
    rcases h with rfl | rfl | rfl | rfl | h
    · exact isDigit_digit (by omega)
    · exact isDigit_digit (by omega)
    · exact isDigit_digit (by omega)
    · exact isDigit_digit (by omega)
    · exact ih h

theorem encodeGroups_ne_nil (h : bs ≠ []) : encodeGroups bs ≠ [] := by
  cases bs using encodeGroups.fun_cases with
  | case1 => exact absurd rfl h
  | case2 a => exact List.cons_ne_nil _ _
  | case3 a b => exact List.cons_ne_nil _ _
  | case4 a b c rest => exact List.cons_ne_nil _ _

end Retag.Text.Base64

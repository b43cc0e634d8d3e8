import Mathlib.Algebra.Group.Nat.Defs
import Retag.Text.Hex

/-! Hexadecimal digits read back. -/

namespace Retag.Text

variable {width n : Nat} {x : Char}

theorem hexValue?_hexDigit (h : n < 16) : hexValue? (hexDigit true n) = some n := by
  have hall : ∀ m < 16, hexValue? (hexDigit true m) = some m := by decide
  exact hall n h

/-- What is so for the sixteen digits is so for all that are written. --/
theorem forall_mem_hexDigits {P : Char → Prop} (hdigit : ∀ m < 16, P (hexDigit true m))
    (h : x ∈ hexDigits true width n) : P x := by
  induction width generalizing n with
  | zero => cases h
  | succ width ih =>
    rcases List.mem_append.mp h with h | h
    · exact ih h
    · rw [List.mem_singleton.mp h]
      exact hdigit _ (Nat.mod_lt _ (by decide))

theorem isSome_hexValue?_of_mem (h : x ∈ hexDigits true width n) : (hexValue? x).isSome :=
  forall_mem_hexDigits (P := fun x => (hexValue? x).isSome = true) (by decide) h

theorem go_hexDigits (m : Nat) (rest : List Char) : hexNumber?.go m (hexDigits true width n ++ rest) =
    hexNumber?.go (m * 16 ^ width + n % 16 ^ width) rest := by
  induction width generalizing n rest with
  | zero => simp [hexDigits, Nat.mod_one]
  | succ width ih =>
    have hvalue : 16 * (m * 16 ^ width + n / 16 % 16 ^ width) + n % 16 = m * 16 ^ (width + 1) + n % 16 ^ (width + 1) := by
      rw [Nat.pow_succ, Nat.mul_comm (16 ^ width) 16, Nat.mod_mul, Nat.mul_left_comm m 16, Nat.mul_add]
      omega
    rw [hexDigits, List.append_assoc, ih, List.singleton_append, hexNumber?.go, hexValue?_hexDigit (Nat.mod_lt _ (by decide)),
      Option.bind_some, hvalue]

/-- A number that fits is read back from its digits. --/
theorem hexNumber?_hexDigits : hexNumber? (hexDigits true width n) = some (n % 16 ^ width) := by
  have h := @go_hexDigits width n 0 []
  rw [List.append_nil, Nat.zero_mul, Nat.zero_add] at h
  exact h

end Retag.Text

/-! Hexadecimal digits, written with a fixed width and read one at a time. -/

namespace Retag.Text

/-- The hexadecimal digit of a number below sixteen. --/
def hexDigit (upper : Bool) (n : Nat) : Char :=
  if n < 10 then Char.ofNat (48 + n) else Char.ofNat ((if upper then 55 else 87) + n)

/-- The last hexadecimal digits of a number, `width` of them, with zeros in front. --/
def hexDigits (upper : Bool) : Nat → Nat → List Char
  | 0, _ => []
  | width + 1, n => hexDigits upper width (n / 16) ++ [hexDigit upper (n % 16)]

/-- The value of a hexadecimal digit in either case. --/
def hexValue? (c : Char) : Option Nat :=
  let n := c.toNat
  if 48 ≤ n && n ≤ 57 then some (n - 48)
  else if 65 ≤ n && n ≤ 70 then some (n - 55)
  else if 97 ≤ n && n ≤ 102 then some (n - 87)
  else none

/-- The number that a row of hexadecimal digits writes. --/
def hexNumber? : List Char → Option Nat :=
  go 0
where
  go (n : Nat) : List Char → Option Nat
    | [] => some n
    | c :: rest => (hexValue? c).bind fun d => go (16 * n + d) rest

theorem length_hexDigits (upper : Bool) (width n : Nat) : (hexDigits upper width n).length = width := by
  induction width generalizing n with
  | zero => rfl
  | succ width ih => simp [hexDigits, ih]

end Retag.Text

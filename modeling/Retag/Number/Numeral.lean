import Retag.Text.Blank
import Retag.Text.Digit

/-! Whole numbers as text. A numeral may have blanks around it, a sign, and digits of any script; base two,
    eight and sixteen may show their mark. Decimal numerals have a greatest length in both directions. -/

namespace Retag.Number

open Retag.Text

/-- The greatest number of digits of a decimal numeral. --/
def maxDigits : Nat := 4300

/-- Whether a character may stand around a numeral: a blank that is no information separator. --/
def isPadding (c : Char) : Bool :=
  isBlank c && !(28 ≤ c.toNat && c.toNat ≤ 31)

/-- The ASCII form of a decimal digit, and every other character as it is. --/
def asciiDigit (c : Char) : Char :=
  match digitValue? c with
  | some d => Char.ofNat (48 + d)
  | none => c

/-- A text without the padding at both ends, with its digits in ASCII. --/
def unpad (cs : List Char) : List Char :=
  (((cs.dropWhile isPadding).reverse.dropWhile isPadding).reverse).map asciiDigit

/-- The value of a digit in a base of at most 36. --/
def digitIn? (base : Nat) (c : Char) : Option Nat :=
  let n := c.toNat
  let d := if 48 ≤ n && n ≤ 57 then n - 48 else if 97 ≤ n && n ≤ 122 then n - 87 else if 65 ≤ n && n ≤ 90 then n - 55 else 36
  if d < base then some d else none

/-- The number that a row of digits writes. --/
def ofDigits? (base : Nat) (cs : List Char) : Option Nat :=
  cs.foldl (fun n c => n.bind fun n => (digitIn? base c).map (base * n + ·)) (some 0)

/-- Takes a sign off: whether it is a minus, and the rest. --/
def splitSign : List Char → Bool × List Char
  | '-' :: rest => (true, rest)
  | '+' :: rest => (false, rest)
  | cs => (false, cs)

/-- Whether a letter is the mark of a base after a zero. --/
def isBaseMark (base : Nat) (c : Char) : Bool :=
  (base == 2 && (c == 'b' || c == 'B')) || (base == 8 && (c == 'o' || c == 'O')) || (base == 16 && (c == 'x' || c == 'X'))

/-- Takes the mark of a base off. --/
def dropBaseMark (base : Nat) : List Char → List Char
  | '0' :: c :: rest => if isBaseMark base c then rest else '0' :: c :: rest
  | cs => cs

/-- The whole number that a numeral writes in a base. --/
def readInt? (base : Nat) (cs : List Char) : Option Int :=
  let (negative, cs) := splitSign (unpad cs)
  let digits := dropBaseMark base cs
  if digits.isEmpty || (base == 10 && maxDigits < digits.length) then none
  else (ofDigits? base digits).map fun n => if negative then -(n : Int) else n

/-- The decimal numeral of a whole number, unless it has too many digits. --/
def writeInt? (n : Int) : Option String :=
  if n.natAbs < Nat.pow 10 maxDigits then
    some (String.ofList ((if n < 0 then ['-'] else []) ++ Nat.toDigits 10 n.natAbs))
  else none

end Retag.Number

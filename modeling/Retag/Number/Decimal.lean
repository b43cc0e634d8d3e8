import Retag.Number.Binary64
import Retag.Number.Numeral

/-! Floating-point numbers as decimal text. A number is written with the fewest digits that read back as the
    same number, and of those with the digits nearest to it; a text is read as the number nearest to the exact
    decimal. -/

namespace Retag.Number.Binary64

open Retag.Number

def digitCount (n : Nat) : Nat :=
  (Nat.toDigits 10 n).length

/-- The exponent `k` with `10 ^ (k - 1) ≤ num / den < 10 ^ k`, for positive `num` and `den`. --/
def pointPosition (num den : Nat) : Int :=
  if den ≤ num then digitCount (num / den) else 1 - (digitCount ((den + num - 1) / num - 1) : Int)

/-- The quotient of `num / den` and `10 ^ e`, as a pair of whole numbers. --/
def scaleTen (num den : Nat) (e : Int) : Nat × Nat :=
  if 0 ≤ e then (num, den * Nat.pow 10 e.toNat) else (num * Nat.pow 10 (-e).toNat, den)

/-- The quarter steps from a mantissa to the ends of the interval of reals that round to it, downward and upward:
    below a power of two the next number is only half as far. --/
def quarterSteps (m : Nat) (e : Int) : Nat × Nat :=
  (if m = Nat.pow 2 52 && minExponent < e then 1 else 2, 2)

/-- A decimal: `digits * 10 ^ exponent`. --/
structure Decimal where
  digits : Nat
  exponent : Int
  deriving DecidableEq, Repr

/-- Of the two neighbours of `m * 2 ^ e` on the grid of `10 ^ step`, the nearer one that reads back as it, with
    the middle going to the even one. --/
def neighbour? (m : Nat) (e step : Int) : Option Decimal :=
  let (down, up) := quarterSteps m e
  let quarters := 4 * m
  let (num, den) := scale 1 1 (e - 2)
  let (num, den) := scaleTen num den step
  let below := quarters * num / den
  let reads (c : Nat) : Bool :=
    let low := (quarters - down) * num
    let high := (quarters + up) * num
    if m % 2 = 0 then low ≤ c * den && c * den ≤ high else low < c * den && c * den < high
  let twice := 2 * (quarters * num - below * den)
  let lower : Decimal := ⟨below, step⟩
  let upper : Decimal := ⟨below + 1, step⟩
  if reads below then
    if reads (below + 1) then
      if twice < den || (twice = den && below % 2 = 0) then some lower else some upper
    else some lower
  else if reads (below + 1) then some upper
  else none

/-- The first hit on the grids of `count`, `count + 1`, … digits. --/
def shortestFrom (m : Nat) (e k : Int) : (tries count : Nat) → Decimal
  | 0, count => ⟨m, k - count⟩
  | tries + 1, count => match neighbour? m e (k - count) with
    | some d => d
    | none => shortestFrom m e k tries (count + 1)

/-- The shortest decimal that reads back as `m * 2 ^ e`, for positive `m`. --/
def shortest (m : Nat) (e : Int) : Decimal :=
  let (num, den) := scale m 1 e
  shortestFrom m e (pointPosition num den) 17 1

/-- The significant digits of a decimal, and the position of the point before the first of them. --/
def Decimal.significant (d : Decimal) : List Char × Int :=
  let ds := Nat.toDigits 10 d.digits
  ((ds.reverse.dropWhile (· == '0')).reverse, ds.length + d.exponent)

/-- How a decimal is laid out: positional if the point falls from four places before the digits to sixteen after
    their start, and always with a digit on both sides of it; else one digit, the rest behind a point, and an
    exponent with a sign and two digits at least. --/
def layOut (ds : List Char) (point : Int) : List Char :=
  if -4 < point && point ≤ 16 then
    if point ≤ 0 then '0' :: '.' :: List.replicate (-point).toNat '0' ++ ds
    else if (ds.length : Int) ≤ point then
      ds ++ List.replicate (point - ds.length).toNat '0' ++ ['.', '0']
    else ds.take point.toNat ++ '.' :: ds.drop point.toNat
  else
    let e := point - 1
    let es := Nat.toDigits 10 e.natAbs
    let mantissa := match ds with
      | [] => ['0']
      | [d] => [d]
      | d :: rest => d :: '.' :: rest
    mantissa ++ 'e' :: (if e < 0 then '-' else '+') :: (if es.length < 2 then '0' :: es else es)

def text : Binary64 → String
  | .nan => "nan"
  | .infinity negative => if negative then "-inf" else "inf"
  | .finite negative m e =>
    let sign := if negative then ['-'] else []
    if m = 0 then String.ofList (sign ++ ['0', '.', '0'])
    else
      let (ds, point) := (shortest m e).significant
      String.ofList (sign ++ layOut ds point)

/-- The number nearest to `± digits * 10 ^ exponent`. Exponents far beyond the range are not computed. --/
def ofDecimal (negative : Bool) (digits : Nat) (exponent : Int) : Binary64 :=
  if digits = 0 then zero negative
  else
    let point := digitCount digits + exponent
    if 400 < point then .infinity negative
    else if point < -400 then zero negative
    else
      let (num, den) := scaleTen digits 1 (-exponent)
      ofRatio negative num den

/-- Takes the leading ASCII digits off. --/
def spanDigits (cs : List Char) : List Char × List Char :=
  cs.span Char.isDigit

/-- Reads what may follow the digits of a number: nothing, or an exponent. --/
def readExponent? : List Char → Option Int
  | [] => some 0
  | c :: rest =>
    if c = 'e' || c = 'E' then
      let (negative, ds) := splitSign rest
      if ds.isEmpty || !ds.all Char.isDigit then none
      else (ofDigits? 10 ds).map fun n => if negative then -(n : Int) else n
    else none

/-- Reads digits with at most one point among them and an exponent behind. --/
def readDecimal? (negative : Bool) (cs : List Char) : Option Binary64 :=
  let (whole, rest) := spanDigits cs
  let (fraction, rest) := match rest with
    | '.' :: rest => spanDigits rest
    | _ => ([], rest)
  if whole.isEmpty && fraction.isEmpty then none
  else
    match ofDigits? 10 (whole ++ fraction), readExponent? rest with
    | some n, some e => some (ofDecimal negative n (e - fraction.length))
    | _, _ => none

/-- The number that a text writes: a decimal, an infinity or a NaN, in any case and with padding around it. --/
def ofText? (cs : List Char) : Option Binary64 :=
  let (negative, cs) := splitSign (unpad cs)
  let word := String.ofList (cs.map Char.toLower)
  if word = "inf" || word = "infinity" then some (.infinity negative)
  else if word = "nan" then some .nan
  else readDecimal? negative cs

end Retag.Number.Binary64

/-! Binary floating-point numbers of 64 bits, as exact values. A finite number is a mantissa of at most 53 bits
    times a power of two; every result is rounded once, to the nearest number and from the middle to the even
    mantissa. -/

namespace Retag.Number

/-- A floating-point number. A finite one is `± mantissa * 2 ^ exponent`, where the mantissa has 53 bits unless
    the exponent is the least. --/
inductive Binary64 where
  | nan
  | infinity (negative : Bool)
  | finite (negative : Bool) (mantissa : Nat) (exponent : Int)
  deriving DecidableEq, Repr

namespace Binary64

def minExponent : Int := -1074

def maxExponent : Int := 971

def zero (negative : Bool) : Binary64 :=
  .finite negative 0 minExponent

/-- A quotient rounded to the nearest whole number, from the middle to the even one. --/
def divNearest (num den : Nat) : Nat :=
  let q := num / den
  let twice := 2 * (num % den)
  if twice < den then q else if den < twice then q + 1 else q + q % 2

/-- The quotient of `num * 2 ^ e` and `den`, as a pair of whole numbers. --/
def scale (num den : Nat) (e : Int) : Nat × Nat :=
  if 0 ≤ e then (num * Nat.pow 2 e.toNat, den) else (num, den * Nat.pow 2 (-e).toNat)

/-- The exponent of the greatest power of two that is at most `num / den`. --/
def floorLog2 (num den : Nat) : Int :=
  let guess : Int := (num.log2 : Int) - (den.log2 : Int)
  let (n, d) := scale num den (-guess)
  if n < d then guess - 1 else guess

/-- The number nearest to `± num / den`, where `den` is positive. --/
def ofRatio (negative : Bool) (num den : Nat) : Binary64 :=
  if num = 0 then zero negative
  else
    -- Below the least exponent, numbers lose bits.
    let e := max minExponent (floorLog2 num den - 52)
    let (n, d) := scale num den (-e)
    let m := divNearest n d
    -- Rounding up may need one bit more.
    let (m, e) := if m = Nat.pow 2 53 then (Nat.pow 2 52, e + 1) else (m, e)
    if maxExponent < e then .infinity negative else .finite negative m e

/-- The number nearest to `± m * 2 ^ e`. --/
def ofScaled (negative : Bool) (m : Nat) (e : Int) : Binary64 :=
  let (n, d) := scale m 1 e
  ofRatio negative n d

def ofInt (n : Int) : Binary64 :=
  ofRatio (n < 0) n.natAbs 1

/-- Whether a number is neither an infinity nor a NaN. --/
def isFinite : Binary64 → Bool
  | .finite .. => true
  | _ => false

def neg : Binary64 → Binary64
  | .nan => .nan
  | .infinity s => .infinity !s
  | .finite s m e => .finite (!s) m e

/-- The sum of two numbers; an exact zero is positive unless both were negative. --/
def add : Binary64 → Binary64 → Binary64
  | .nan, _ | _, .nan => .nan
  | .infinity s, .infinity t => if s = t then .infinity s else .nan
  | .infinity s, _ | _, .infinity s => .infinity s
  | .finite s m e, .finite t n f =>
    let least := min e f
    let signed (negative : Bool) (k : Nat) : Int := if negative then -(k : Int) else k
    let sum := signed s (m * Nat.pow 2 (e - least).toNat) + signed t (n * Nat.pow 2 (f - least).toNat)
    if sum = 0 then zero (s && t) else ofScaled (sum < 0) sum.natAbs least

def mul : Binary64 → Binary64 → Binary64
  | .nan, _ | _, .nan => .nan
  | .infinity s, .infinity t => .infinity (s != t)
  | .infinity s, .finite t n _ | .finite t n _, .infinity s => if n = 0 then .nan else .infinity (s != t)
  | .finite s m e, .finite t n f => ofScaled (s != t) (m * n) (e + f)

/-- Whether two numbers have the same value; a NaN has none. --/
def sameValue : Binary64 → Binary64 → Bool
  | .infinity s, .infinity t => s == t
  | .finite s m e, .finite t n f => (m == 0 && n == 0) || (s == t && m == n && e == f)
  | _, _ => false

/-- Whether a number has the value of a whole number. --/
def isWhole (x : Binary64) (n : Int) : Bool :=
  match x with
  | .finite s m e =>
    let m : Int := if s then -(m : Int) else m
    if 0 ≤ e then m * Nat.pow 2 e.toNat == n else m == n * Nat.pow 2 (-e).toNat
  | _ => false

end Binary64

end Retag.Number

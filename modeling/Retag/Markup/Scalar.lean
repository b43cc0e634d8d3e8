import Retag.Calendar.Timestamp
import Retag.Document.Basic
import Retag.Markup.Tag
import Retag.Markup.Token.Basic
import Retag.Number.Decimal
import Retag.Text.Base64
import Retag.Text.Encoding

/-! Scalars by tag: the value that a text stands for under a tag. Underscores in numbers do not count, and colons
    in them separate places to base sixty. -/

namespace Retag.Markup

open Number Text

/-- The truth value that a word names, in any case. --/
def readBool (cs : List Char) : Except Fault Bool :=
  let word := String.ofList (cs.map Char.toLower)
  if ["yes", "true", "on"].contains word then .ok true
  else if ["no", "false", "off"].contains word then .ok false
  else .error (.broken .notTruth)

/-- Takes the sign off a numeral, which is not empty. --/
def signOff (cs : List Char) : Except Fault (Bool × List Char) :=
  if cs.isEmpty then .error (.broken .emptyNumeral) else .ok (splitSign cs)

/-- Reads a numeral in a base. --/
def readBase (base : Nat) (cs : List Char) : Except Fault Int :=
  match readInt? base cs with
  | some n => .ok n
  | none => .error (.broken .badNumeral)

/-- The whole number that a text without underscores and sign stands for. --/
def readMagnitude (cs : List Char) : Except Fault Int :=
  match cs with
  | [] => .error (.broken .emptyNumeral)
  | ['0'] => .ok 0
  | '0' :: 'b' :: rest => readBase 2 rest
  | '0' :: 'x' :: rest => readBase 16 rest
  | '0' :: _ => readBase 8 cs
  | _ => do
    let places ← (Form.colonParts cs).mapM (readBase 10)
    return places.foldl (fun n d => n * 60 + d) 0

/-- The whole number that a text stands for. --/
def readInt (cs : List Char) : Except Fault Int := do
  let (negative, cs) ← signOff (cs.filter (· ≠ '_'))
  let n ← readMagnitude cs
  return if negative then -n else n

/-- Reads a decimal numeral. --/
def readFloatPart (cs : List Char) : Except Fault Binary64 :=
  match Binary64.ofText? cs with
  | some x => .ok x
  | none => .error (.broken .badNumeral)

/-- The sum of places to base sixty, the last one first; `weight` is the worth of the first. --/
def sumPlaces (weight : Nat) (sum : Binary64) : List Binary64 → Except Fault Binary64
  | [] => .ok sum
  | x :: rest =>
    let w := Binary64.ofInt weight
    if w.isFinite then sumPlaces (weight * 60) (sum.add (x.mul w)) rest else .error (.broken .hugePlace)

/-- The text of a number without underscores and in lower case. --/
def floatText (cs : List Char) : List Char :=
  (cs.filter (· ≠ '_')).map Char.toLower

/-- The floating-point number that a text stands for. --/
def readFloat (cs : List Char) : Except Fault Binary64 := do
  let (negative, cs) ← signOff (floatText cs)
  let x ←
    if cs = ".inf".toList then pure (Binary64.infinity false)
    else if cs = ".nan".toList then pure Binary64.nan
    else match Form.colonParts cs with
      | [part] => readFloatPart part
      | parts => do sumPlaces 1 (.zero false) (← parts.mapM readFloatPart).reverse
  return if negative then x.neg else x

/-- Whether a text is the word for what is no number, with or without a sign. --/
def isNanWord (cs : List Char) : Bool :=
  (splitSign (floatText cs)).2 == ".nan".toList

def isNanText : Text.Wobbly → Bool
  | .whole s => isNanWord s.toList
  | .torn _ => false

/-- The day or moment that a text stands for. --/
def readTimestamp (cs : List Char) : Except Fault Scalar :=
  match Calendar.readParts? cs with
  | none => .error (.broken .notTimestamp)
  | some parts => match parts.stamp? with
    | some (.date d) => .ok (.date d)
    | some (.moment m) => .ok (.moment m)
    | none => .error (.broken .impossibleDate)

/-- The bytes that a text stands for, which is all ASCII. --/
def readBinary (cs : List Char) : Except Fault Scalar :=
  if cs.all fun c => c.toNat < 128 then
    match Base64.decode? cs with
    | some bs => .ok (.bytes bs)
    | none => .error .malformed
  else .error .malformed

/-- The value that a text stands for under the tag of a scalar. --/
def readScalar (tag : Tag) (text : String) : Except Fault Scalar :=
  let cs := text.toList
  match tag with
  | .null => .ok .null
  | .bool => (readBool cs).map .bool
  | .int => (readInt cs).map .int
  | .float => (readFloat cs).map .float
  | .binary => readBinary cs
  | .timestamp => readTimestamp cs
  | .str => .ok (.str text)
  | _ => .error .malformed

/-- The value of a text that may be torn. Under any other tag than that of texts a half counts as a character that has no
    place there. --/
def readText (tag : Tag) : Text.Wobbly → Except Fault Scalar
  | .whole s => readScalar tag s
  | .torn t => if tag = .str then .ok (.torn t) else readScalar tag t.standIn

end Retag.Markup

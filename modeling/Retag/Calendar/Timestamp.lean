import Retag.Calendar.Basic

/-! Days and moments as text. A timestamp is a day, or a day and a time with an optional fraction and an optional
    clock offset; one line feed may end it. Reading tells a text of another shape from a timestamp that names no
    day or time. -/

namespace Retag.Calendar

/-- The decimal digits of a number, `width` of them at least. --/
def padded (width n : Nat) : List Char :=
  let ds := Nat.toDigits 10 n
  List.replicate (width - ds.length) '0' ++ ds

namespace Date

def text (d : Date) : String :=
  String.ofList (padded 4 d.year ++ '-' :: padded 2 d.month ++ '-' :: padded 2 d.day)

end Date

namespace Offset

/-- The text of an offset; zero microseconds are left out, and zero seconds before them. --/
def text (o : Offset) : String :=
  let n := o.microseconds.natAbs
  let seconds := n / perSecond
  let rest := n % perSecond
  String.ofList ((if o.microseconds < 0 then '-' else '+') :: padded 2 (seconds / 3600) ++
    ':' :: padded 2 (seconds / 60 % 60) ++
    (if seconds % 60 = 0 && rest = 0 then [] else ':' :: padded 2 (seconds % 60)) ++
    (if rest = 0 then [] else '.' :: padded 6 rest))

end Offset

namespace Moment

/-- The text of a moment with a character between day and time. --/
def text (between : Char) (m : Moment) : String :=
  m.date.text ++ String.ofList
    (between :: padded 2 m.hour ++ ':' :: padded 2 m.minute ++ ':' :: padded 2 m.second ++
      (if m.microsecond = 0 then [] else '.' :: padded 6 m.microsecond)) ++
    (m.offset.map Offset.text).getD ""

end Moment

/-- The parts of the time of a timestamp: clock reading, digits of the fraction, and offset as whether it is
    westward, hours and minutes. --/
structure TimeParts where
  hour : Nat
  minute : Nat
  second : Nat
  fraction : List Char
  offset : Option (Bool × Nat × Nat)

structure Parts where
  year : Nat
  month : Nat
  day : Nat
  time : Option TimeParts

/-- The number that a row of ASCII digits writes. --/
def digitsValue (ds : List Char) : Nat :=
  ds.foldl (fun n d => 10 * n + (d.toNat - 48)) 0

/-- Takes at least `least` and at most `most` digits off. --/
def takeDigits (least most : Nat) (cs : List Char) : Option (Nat × List Char) :=
  let ds := (cs.take most).takeWhile Char.isDigit
  if ds.length < least then none else some (digitsValue ds, cs.drop ds.length)

def takeChar (c : Char) : List Char → Option (List Char)
  | d :: rest => if c = d then some rest else none
  | [] => none

/-- Whether a character is a space or a tab. --/
def isGap (c : Char) : Bool :=
  c == ' ' || c == '\t'

/-- Whether nothing but one line feed is left. --/
def atEnd (cs : List Char) : Bool :=
  cs.isEmpty || cs == ['\n']

/-- Reads what follows the seconds and their fraction. --/
def readOffset? (cs : List Char) : Option (Option (Bool × Nat × Nat)) :=
  if atEnd cs then some none
  else match cs.dropWhile isGap with
    | 'Z' :: rest => if atEnd rest then some (some (false, 0, 0)) else none
    | c :: rest =>
      if c = '+' || c = '-' then do
        let (hours, rest) ← takeDigits 1 2 rest
        if atEnd rest then return some (c == '-', hours, 0)
        let (minutes, rest) ← takeDigits 2 2 (← takeChar ':' rest)
        guard (atEnd rest)
        return some (c == '-', hours, minutes)
      else none
    | [] => none

def readTime? (cs : List Char) : Option TimeParts := do
  let (hour, rest) ← takeDigits 1 2 cs
  let (minute, rest) ← takeDigits 2 2 (← takeChar ':' rest)
  let (second, rest) ← takeDigits 2 2 (← takeChar ':' rest)
  let (fraction, rest) := match rest with
    | '.' :: rest => rest.span Char.isDigit
    | _ => ([], rest)
  return { hour, minute, second, fraction, offset := ← readOffset? rest }

/-- Reads the parts of a timestamp; none if the text has another shape. --/
def readParts? (cs : List Char) : Option Parts := do
  let (year, rest) ← takeDigits 4 4 cs
  let (month, rest) ← takeDigits 1 2 (← takeChar '-' rest)
  let (day, rest) ← takeDigits 1 2 (← takeChar '-' rest)
  if atEnd rest then return ⟨year, month, day, none⟩
  let clock ← match rest with
    | 'T' :: rest | 't' :: rest => some rest
    | c :: rest => if isGap c then some (rest.dropWhile isGap) else none
    | [] => none
  return ⟨year, month, day, some (← readTime? clock)⟩

/-- Microseconds from the digits of a fraction: six digits count, missing ones are zeros. --/
def microseconds (fraction : List Char) : Nat :=
  let ds := fraction.take 6
  digitsValue (ds ++ List.replicate (6 - ds.length) '0')

inductive Stamp where
  | date (d : Date)
  | moment (m : Moment)
  deriving DecidableEq, Repr

/-- The day or moment that the parts of a timestamp name, if they name one. --/
def Parts.stamp? (p : Parts) : Option Stamp := do
  let some time := p.time | return .date (← Date.ofParts? p.year p.month p.day)
  let offset ← match time.offset with
    | none => some none
    | some (west, hours, minutes) =>
      let n : Int := hours * 60 + minutes
      (Offset.ofMinutes? (if west then -n else n)).map some
  let date ← Date.ofParts? p.year p.month p.day
  return .moment (← Moment.ofParts? date time.hour time.minute time.second (microseconds time.fraction) offset)

end Retag.Calendar

/-! Days of the calendar and moments of a day. A moment may carry the offset of its clock from universal time,
    and two such moments are the same when they are the same instant. -/

namespace Retag.Calendar

def isLeap (year : Nat) : Bool :=
  year % 4 == 0 && (year % 100 != 0 || year % 400 == 0)

/-- The number of days of a month; none for a number that names no month. --/
def daysIn (year month : Nat) : Nat :=
  match month with
  | 2 => if isLeap year then 29 else 28
  | 4 | 6 | 9 | 11 => 30
  | 1 | 3 | 5 | 7 | 8 | 10 | 12 => 31
  | _ => 0

/-- The number of days of a year before a month. --/
def daysBefore (year : Nat) : (month : Nat) → Nat
  | 0 => 0
  | month + 1 => daysBefore year month + daysIn year month

def isDate (year month day : Nat) : Bool :=
  1 ≤ year && year ≤ 9999 && 1 ≤ day && day ≤ daysIn year month

structure Date where
  year : Nat
  month : Nat
  day : Nat
  valid : isDate year month day = true
  deriving DecidableEq, Repr

namespace Date

/-- The day that three numbers name. --/
def ofParts? (year month day : Nat) : Option Date :=
  if h : isDate year month day = true then some ⟨year, month, day, h⟩ else none

/-- The number of days before the day, counted from the first day of year one. --/
def ordinal (d : Date) : Nat :=
  let past := d.year - 1
  past * 365 + past / 4 - past / 100 + past / 400 + daysBefore d.year d.month + (d.day - 1)

end Date

def isTime (hour minute second : Nat) : Bool :=
  hour < 24 && minute < 60 && second < 60

/-- The microseconds of a second. --/
def perSecond : Nat := 1000000

/-- The microseconds of a day. --/
def perDay : Nat := 86400 * perSecond

/-- The offset of a clock in microseconds, less than a day in either direction. --/
structure Offset where
  microseconds : Int
  small : microseconds.natAbs < perDay
  deriving DecidableEq, Repr

namespace Offset

def ofMicroseconds? (n : Int) : Option Offset :=
  if h : n.natAbs < perDay then some ⟨n, h⟩ else none

def ofMinutes? (n : Int) : Option Offset :=
  ofMicroseconds? (n * (60 * perSecond))

def utc : Offset :=
  ⟨0, by decide⟩

end Offset

/-- A moment of a day, to the microsecond, by a clock of known or unknown offset. --/
structure Moment where
  date : Date
  hour : Nat
  minute : Nat
  second : Nat
  microsecond : Nat
  offset : Option Offset
  valid : isTime hour minute second = true
  deriving DecidableEq, Repr

namespace Moment

def ofParts? (date : Date) (hour minute second microsecond : Nat) (offset : Option Offset) : Option Moment :=
  if h : isTime hour minute second = true then some ⟨date, hour, minute, second, microsecond, offset, h⟩ else none

def clockMicroseconds (m : Moment) : Nat :=
  (((m.date.ordinal * 24 + m.hour) * 60 + m.minute) * 60 + m.second) * perSecond + m.microsecond

/-- Whether two moments are equal: the same reading of clocks without an offset, or the same instant. --/
def same (m n : Moment) : Bool :=
  match m.offset, n.offset with
  | none, none => m.clockMicroseconds == n.clockMicroseconds
  | some a, some b => (m.clockMicroseconds : Int) - a.microseconds == (n.clockMicroseconds : Int) - b.microseconds
  | _, _ => false

end Moment

end Retag.Calendar

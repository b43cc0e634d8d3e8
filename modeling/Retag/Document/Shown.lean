import Retag.Calendar.Timestamp
import Retag.Document.Value
import Retag.Number.Decimal
import Retag.Text.Quoted

/-! Values as text. `text?` gives a value as it is reported on its own, `shown?` as it is reported inside a
    container, where a text stands in quotes and a day or moment names its parts. There is no text for a whole
    number of too many digits, nor for a value that holds one. -/

namespace Retag

open Number Calendar Text

namespace Calendar

/-- Joins words with a comma and a space. --/
def listed (words : List String) : String :=
  ", ".intercalate words

/-- An offset by its parts: whole days downward, then seconds and microseconds. --/
def Offset.shown (o : Offset) : String :=
  if o.microseconds = 0 then "datetime.timezone.utc"
  else
    let seconds := o.microseconds / perSecond
    let days := seconds / 86400
    let parts := [("days=", days), ("seconds=", seconds % 86400), ("microseconds=", o.microseconds % perSecond)]
    let parts := (parts.filter fun e => e.2 ≠ 0).map fun e => e.1 ++ toString e.2
    "datetime.timezone(datetime.timedelta(" ++ listed parts ++ "))"

/-- A day by its parts. --/
def Date.shown (d : Date) : String :=
  "datetime.date(" ++ listed ([d.year, d.month, d.day].map toString) ++ ")"

/-- A moment by its parts; zero microseconds are left out, and zero seconds before them. --/
def Moment.shown (m : Moment) : String :=
  let d := m.date
  let clock := if m.microsecond ≠ 0 then [m.second, m.microsecond] else if m.second ≠ 0 then [m.second] else []
  let numbers := ([d.year, d.month, d.day, m.hour, m.minute] ++ clock).map toString
  let zone := match m.offset with
    | none => []
    | some o => ["tzinfo=" ++ o.shown]
  "datetime.datetime(" ++ listed (numbers ++ zone) ++ ")"

end Calendar

namespace Scalar

/-- A scalar inside a container. --/
def shown? : Scalar → Option String
  | .null => some "None"
  | .bool b => some (if b then "True" else "False")
  | .int n => writeInt? n
  | .float x => some x.text
  | .str s => some (quoted s)
  | .torn t => some (Wobbly.torn t).quoted
  | .bytes bs => some (quotedBytes bs)
  | .date d => some d.shown
  | .moment m => some m.shown

/-- A scalar on its own. --/
def text? : Scalar → Option Wobbly
  | .str s => some s
  | .torn t => some (.torn t)
  | .date d => some d.text
  | .moment m => some (m.text ' ')
  | v => v.shown?.map .whole

end Scalar

/-- The text for a container of a kind that holds itself. --/
def ContainerKind.elided : ContainerKind → String
  | .list => "[...]"
  | .pair => "(...)"
  | .mapping => "\x7b...\x7d"
  | .set => "set(...)"

namespace Value

mutual

/-- A value inside a container. --/
def shown? : Value → Option String
  | .scalar v => v.shown?
  | .list items => (shownItems? items).map fun ws => "[" ++ listed ws ++ "]"
  | .pair first second => do
    let a ← shown? first
    let b ← shown? second
    return "(" ++ listed [a, b] ++ ")"
  | .mapping entries => (shownEntries? entries).map fun ws => "\x7b" ++ listed ws ++ "\x7d"
  | .set members =>
    if members.isEmpty then some "set()" else (shownItems? members).map fun ws => "\x7b" ++ listed ws ++ "\x7d"
  | .enclosing _ kind => some kind.elided

def shownItems? : List Value → Option (List String)
  | [] => some []
  | v :: rest => do
    let w ← shown? v
    let ws ← shownItems? rest
    return w :: ws

def shownEntries? : List (Value × Value) → Option (List String)
  | [] => some []
  | (k, v) :: rest => do
    let key ← shown? k
    let value ← shown? v
    let ws ← shownEntries? rest
    return (key ++ ": " ++ value) :: ws

end

/-- A value on its own. --/
def text? : Value → Option Wobbly
  | .scalar v => v.text?
  | v => v.shown?.map .whole

def kindName : Value → String
  | .scalar v => match v with
    | .null => "NoneType"
    | .bool _ => "bool"
    | .int _ => "int"
    | .float _ => "float"
    | .str _ | .torn _ => "str"
    | .bytes _ => "bytes"
    | .date _ => "date"
    | .moment _ => "datetime"
  | .list _ | .enclosing _ .list => "list"
  | .pair .. | .enclosing _ .pair => "tuple"
  | .mapping _ | .enclosing _ .mapping => "dict"
  | .set _ | .enclosing _ .set => "set"

end Value

end Retag

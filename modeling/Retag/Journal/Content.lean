import Retag.Text.Hex
import Retag.Text.Wobbly

/-! What the fields of records hold: a tree of texts, numbers, rows and objects. A field whose name has full stops in it
    is a part of an object, and the name is the way to it. -/

namespace Retag.Journal

open Text

inductive Content where
  | null
  | truth (b : Bool)
  /-- A number: its digits, and how many of them are decimal places. --/
  | number (digits : Int) (places : Nat)
  | text (s : Wobbly)
  | list (items : List Content)
  | object (members : List (String × Content))
  deriving Inhabited, Repr

abbrev Members := List (String × Content)

namespace Content

/-- A text, or null for none. --/
def ofText? : Option Wobbly → Content
  | some s => .text s
  | none => .null

def isNull : Content → Bool
  | .null => true
  | _ => false

mutual

/-- The parts of a field that are no objects, each with the way to it. --/
def parts (name : String) : Content → Members
  | .object members => (partsOfAll members).map fun (way, c) => (name ++ "." ++ way, c)
  | c => [(name, c)]

/-- The parts of all members of an object that are no objects. --/
def partsOfAll : List (String × Content) → Members
  | [] => []
  | (name, c) :: rest => parts name c ++ partsOfAll rest

end

end Content

namespace Members

/-- Gives a member another content. --/
def set (ms : Members) (name : String) (c : Content) : Members :=
  ms.map fun e => if e.1 = name then (name, c) else e

/-- Puts a content at the end of a way through objects. What stands there already stays. --/
def insert (c : Content) : List String → Members → Members
  | [], ms => ms
  | [name], ms => if (ms.lookup name).isSome then ms else ms ++ [(name, c)]
  | name :: way, ms => match ms.lookup name with
    | none => ms ++ [(name, .object (insert c way []))]
    | some (.object inner) => ms.set name (.object (insert c way inner))
    | some _ => ms

/-- Puts the content of a field at its place. --/
def insertField (ms : Members) (name : String) (c : Content) : Members :=
  insert c (name.splitOn ".") ms

end Members

/-! ### Objects as text -/

/-- One of the numbers that write a character, as an escape. --/
def unit (n : Nat) : List Char :=
  '\\' :: 'u' :: hexDigits false 4 n

/-- A character within a text of an object: quotes, the backslash and everything but visible ASCII is escaped. --/
def escaped (c : Char) : List Char :=
  let n := c.toNat
  if c = '"' || c = '\\' then ['\\', c]
  else if c = '\n' then ['\\', 'n']
  else if c = '\t' then ['\\', 't']
  else if c = '\r' then ['\\', 'r']
  else if n = 8 then ['\\', 'b']
  else if n = 12 then ['\\', 'f']
  else if 32 ≤ n && n < 127 then [c]
  else if n < 0x10000 then unit n
  else unit (0xd800 + (n - 0x10000) / 0x400) ++ unit (0xdc00 + n % 0x400)

def escapedPoint : Point → List Char
  | .char c => escaped c
  | .half n => unit (Point.number n)

/-- A text in an object. --/
def textInObject (s : Wobbly) : String :=
  "\"" ++ String.ofList (s.points.flatMap escapedPoint) ++ "\""

/-- A number in an object, with its decimal places behind a point. --/
def numberInObject (digits : Int) (places : Nat) : String :=
  let ds := Nat.toDigits 10 digits.natAbs
  let ds := List.replicate (places + 1 - ds.length) '0' ++ ds
  let whole := ds.take (ds.length - places)
  let fraction := ds.drop (ds.length - places)
  String.ofList ((if digits < 0 then ['-'] else []) ++ whole ++ (if fraction.isEmpty then [] else '.' :: fraction))

namespace Content

mutual

def write : Content → String
  | .null => "null"
  | .truth b => if b then "true" else "false"
  | .number digits places => numberInObject digits places
  | .text s => textInObject s
  | .list items => "[" ++ ",".intercalate (writeItems items) ++ "]"
  | .object members => "\x7b" ++ ",".intercalate (writeMembers members) ++ "\x7d"

def writeItems : List Content → List String
  | [] => []
  | c :: rest => write c :: writeItems rest

def writeMembers : List (String × Content) → List String
  | [] => []
  | (name, c) :: rest => (textInObject name ++ ":" ++ write c) :: writeMembers rest

end

end Content

end Retag.Journal

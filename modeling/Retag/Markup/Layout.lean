import Retag.Markup.Outline
import Retag.Markup.Page
import Retag.Markup.Style
import Retag.Text.Hex

/-! The layout of outlines. Collections are written in block style, two columns per level; a sequence that is the
    value of a mapping is not indented further, and empty collections are written with their marks. Lines are
    folded at single spaces beyond column 80, except in simple keys. -/

namespace Retag.Markup

open Text

namespace Page

/-- The column beyond which lines are folded. --/
def width : Nat := 80

/-! ### Scalars -/

/-- The run of characters at the start of a text that are of the same kind: spaces, line ends, or others. --/
def run (cs : List Char) : List Char :=
  match cs with
  | [] => []
  | c :: _ => cs.takeWhile fun d => (d == ' ') == (c == ' ') && isBreak d == isBreak c

/-- Writes the runs of a plain scalar. --/
def plainRuns (p : Page) (n : Nat) (split : Bool) : Nat → List Char → Page
  | 0, _ => p
  | fuel + 1, cs =>
    let r := run cs
    if r.isEmpty then p
    else
      let p := if r = [' '] && width < p.column && split then (p.indent n).inText else p.write r
      plainRuns p n split fuel (cs.drop r.length)

def plain (p : Page) (n : Nat) (split root : Bool) (cs : List Char) : Page :=
  let p := { p with openEnded := p.openEnded || root }
  if cs.isEmpty then p
  else
    let p := if p.afterBlank then p else p.write [' ']
    plainRuns p.inText n split cs.length cs

/-- Writes line ends, a line feed twice if it is the first. --/
def breaks (p : Page) : List Char → Page
  | [] => p
  | c :: rest => (c :: rest).foldl lineBreak (if c = '\n' then p.lineBreak '\n' else p)

/-- Writes the runs of a text between single quotes. --/
def singleRuns (p : Page) (n : Nat) (split : Bool) : Nat → (first : Bool) → List Char → Page
  | 0, _, _ => p
  | fuel + 1, first, cs =>
    let r := run cs
    let rest := cs.drop r.length
    match r with
    | [] => p
    | c :: _ =>
      let p :=
        if isBreak c then (p.breaks r).indent n
        else if r = [' '] && width < p.column && split && !first && !rest.isEmpty then p.indent n
        else p.write (r.flatMap fun d => if d = '\'' then ['\'', '\''] else [d])
      singleRuns p n split fuel false rest

def single (p : Page) (n : Nat) (split : Bool) (cs : List Char) : Page :=
  (singleRuns (p.mark ['\'']) n split cs.length true cs).closeMark ['\'']

/-- The letter of the escape for a character that has one of its own. --/
def escapeLetter? (c : Char) : Option Char :=
  match c with
  | '\x00' => some '0'
  | '\x07' => some 'a'
  | '\x08' => some 'b'
  | '\t' => some 't'
  | '\n' => some 'n'
  | '\x0b' => some 'v'
  | '\x0c' => some 'f'
  | '\r' => some 'r'
  | '\x1b' => some 'e'
  | '"' => some '"'
  | '\\' => some '\\'
  | '\x85' => some 'N'
  | '\xa0' => some '_'
  | '\u2028' => some 'L'
  | '\u2029' => some 'P'
  | _ => none

def escape (c : Char) : List Char :=
  match escapeLetter? c with
  | some x => ['\\', x]
  | none =>
    let n := c.toNat
    if n < 0x100 then '\\' :: 'x' :: hexDigits true 2 n
    else if n < 0x10000 then '\\' :: 'u' :: hexDigits true 4 n
    else '\\' :: 'U' :: hexDigits true 8 n

/-- The escape of a half. --/
def halfEscape (n : Fin 0x800) : List Char :=
  '\\' :: 'u' :: hexDigits true 4 (Point.number n)

/-- Whether a character is escaped between double quotes. --/
def isEscaped (c : Char) : Bool :=
  let n := c.toNat
  c == '"' || c == '\\' || n == 0xfeff || isBreak c ||
    !((0x20 ≤ n && n ≤ 0x7e) || (0xa0 ≤ n && n ≤ 0xd7ff) || (0xe000 ≤ n && n ≤ 0xfffd))

/-- Folds a line between double quotes: a backslash ends it, and another one holds a space that comes next. --/
def fold (p : Page) (n : Nat) (next : Option Char) : Page :=
  let p := ((p.write ['\\']).indent n).inText
  if next = some ' ' then p.write ['\\'] else p

/-- What is written for a point between double quotes: a character as it is, or else an escape. --/
def written : Point → Char ⊕ List Char
  | .char c => if isEscaped c then .inr (escape c) else .inl c
  | .half n => .inr (halfEscape n)

/-- Writes on between double quotes; `pending` is what was passed and not written, the last character first. --/
def doubleBody (p : Page) (n : Nat) (split : Bool) : (first : Bool) → (pending : List Char) → List Point → Page
  | _, pending, [] => p.write pending.reverse
  | first, pending, x :: rest =>
    -- No line ends at the first point or at the last one.
    let canFold := split && !first && !rest.isEmpty
    match written x with
    | .inr escape =>
      let p := (p.write pending.reverse).write escape
      let p := if canFold && width + 1 < p.column then p.fold n (rest.head?.bind Point.char?) else p
      doubleBody p n split false [] rest
    | .inl c =>
      if canFold && (c = ' ' || pending.isEmpty) && width < p.column + pending.length then
        doubleBody ((p.write pending.reverse).fold n (some c)) n split false [c] rest
      else doubleBody p n split false (c :: pending) rest

def double (p : Page) (n : Nat) (split : Bool) (points : List Point) : Page :=
  (doubleBody (p.mark ['"']) n split true [] points).closeMark ['"']

/-- The marks behind the one of a literal scalar: how far it is indented, if its first line does not show it, and
    what becomes of the line ends after the last line. --/
def hints (cs : List Char) : List Char :=
  let start := match cs with
    | [] => []
    | c :: _ => if c == ' ' || isBreak c then ['2'] else []
  let ending := match cs.reverse with
    | [] => []
    | [c] => if isBreak c then ['+'] else ['-']
    | c :: d :: _ => if isBreak c then if isBreak d then ['+'] else [] else ['-']
  start ++ ending

/-- Writes the lines of a literal scalar. --/
def literalRuns (p : Page) (n : Nat) : Nat → List Char → Page
  | 0, _ => p
  | fuel + 1, cs =>
    let line := cs.takeWhile fun c => !isBreak c
    let rest := cs.drop line.length
    let p := if line.isEmpty then p else (p.indent n).writeUncounted line
    if rest.isEmpty then if line.isEmpty then p else p.lineBreak '\n'
    else
      let ends := rest.takeWhile isBreak
      literalRuns (ends.foldl lineBreak p) n fuel (rest.drop ends.length)

/-- Writes a text in lines. --/
def literal (p : Page) (n : Nat) (cs : List Char) : Page :=
  let hs := hints cs
  let p := p.mark ('|' :: hs)
  let p := { p with openEnded := p.openEnded || hs.getLast? == some '+' }
  literalRuns (p.lineBreak '\n') n (cs.length + 1) cs

end Page

/-! ### Nodes -/

namespace Outline

/-- Where a node stands: alone, as an item of a sequence, as a simple key, or as a value or another key of a
    mapping. --/
inductive Place where
  | root
  | item
  | simpleKey
  | entry
  deriving DecidableEq, Repr

/-- The short text of a tag. --/
def tagText : Tag → List Char
  | .null => "!!null".toList
  | .bool => "!!bool".toList
  | .int => "!!int".toList
  | .float => "!!float".toList
  | .binary => "!!binary".toList
  | .timestamp => "!!timestamp".toList
  | .str => "!!str".toList
  | .seq => "!!seq".toList
  | .map => "!!map".toList
  | .set => "!!set".toList
  | .omap => "!!omap".toList
  | .pairs => "!!pairs".toList
  | .merge => "!!merge".toList
  | .value => "!!value".toList
  | .other text => "!<".toList ++ text.toList ++ ['>']

def anchorLength (anchor : Option String) : Nat :=
  (anchor.map String.length).getD 0

/-- Whether a key is short enough, and on one line, so that a colon behind it is mark enough. --/
def isSimpleKey : Outline → Bool
  | .alias name => name.length < 128
  | .scalar anchor tag (.whole s) _ =>
    anchorLength anchor + (tagText tag).length + s.length < 128 && !s.isEmpty && !Style.isMultiline s.toList
  | .scalar anchor tag (.torn t) _ =>
    anchorLength anchor + (tagText tag).length + t.points.length < 128 && !Style.isMultiline t.chars
  | .seq anchor items => anchorLength anchor + (tagText .seq).length < 128 && items.isEmpty
  | .map anchor tag entries => anchorLength anchor + (tagText tag).length < 128 && entries.isEmpty

def writeAnchor (p : Page) (anchor : Option String) : Page :=
  match anchor with
  | some name => p.mark ('&' :: name.toList)
  | none => p

/-- The column of what is inside a node. --/
def deeper (indent : Option Nat) (first : Nat) : Nat :=
  match indent with
  | none => first
  | some n => n + 2

/-- Whether a style leaves the tag of a text to be seen. --/
def showsTag (style : Style) (tag : Tag) (cs : List Char) : Bool :=
  if style = .plain then tag == Tag.ofForm cs else tag == .str

def writeWhole (p : Page) (indent : Option Nat) (place : Place) (tag : Tag) (cs : List Char) (literal : Bool) : Page :=
  let simple := place = .simpleKey
  let style := Style.choose tag cs literal simple
  let p := if showsTag style tag cs then p else p.mark (tagText tag)
  let n := deeper indent 2
  match style with
  | .plain => p.plain n (!simple) (place = .root) cs
  | .single => p.single n (!simple) cs
  | .double => p.double n (!simple) (cs.map .char)
  | .literal => p.literal n cs

/-- Writes a text with halves in it, which only double quotes can hold. --/
def writeTorn (p : Page) (indent : Option Nat) (place : Place) (tag : Tag) (t : Torn) : Page :=
  let p := if tag == .str then p else p.mark (tagText tag)
  p.double (deeper indent 2) (place ≠ .simpleKey) t.points

def writeScalar (p : Page) (indent : Option Nat) (place : Place) (tag : Tag) (text : Wobbly) (literal : Bool) : Page :=
  match text with
  | .whole s => writeWhole p indent place tag s.toList literal
  | .torn t => writeTorn p indent place tag t

mutual

def write (p : Page) (indent : Option Nat) (place : Place) : Outline → Page
  | .alias name => p.mark ('*' :: name.toList)
  | .scalar anchor tag text literal => writeScalar (writeAnchor p anchor) indent place tag text literal
  | .seq anchor items =>
    let p := writeAnchor p anchor
    match items with
    | [] => (p.mark ['[']).closeMark [']']
    | o :: rest =>
      -- The items of a value stand below its key, not further in, if they start on a line of their own.
      let loose := (place = .entry || place = .simpleKey) && !p.indenting
      writeItems p (if loose then indent.getD 0 else deeper indent 0) (o :: rest)
  | .map anchor tag entries =>
    let p := writeAnchor p anchor
    let p := if tag == .map then p else p.mark (tagText tag)
    match entries with
    | [] => (p.mark ['{']).closeMark ['}']
    | e :: rest => writeEntries p (deeper indent 0) (e :: rest)

def writeItems (p : Page) (n : Nat) : List Outline → Page
  | [] => p
  | o :: rest => writeItems (write ((p.indent n).entryMark '-') (some n) .item o) n rest

def writeEntries (p : Page) (n : Nat) : List (Outline × Outline) → Page
  | [] => p
  | (k, v) :: rest =>
    let p := p.indent n
    let p :=
      if isSimpleKey k then (write p (some n) .simpleKey k).closeMark [':']
      else ((write (p.entryMark '?') (some n) .entry k).indent n).entryMark ':'
    writeEntries (write p (some n) .entry v) n rest

end

/-- The text of an outline as a whole document. A text that could go on is closed by a mark. --/
def text (o : Outline) : List Char :=
  let p := (write {} none .root o).indent 0
  let p := if p.openEnded then (p.mark ['.', '.', '.']).indent 0 else p
  p.text

end Outline

end Retag.Markup

/-! Positions in a text of markup, and the characters that structure it. -/

namespace Retag.Markup

/-- Whether a character ends a line. --/
def isBreak (c : Char) : Bool :=
  c == '\n' || c == '\x85' || c == '\u2028' || c == '\u2029'

/-- Whether a character is a space or a tab. --/
def isSpace (c : Char) : Bool :=
  c == ' ' || c == '\t'

/-- Whether a character is a space or ends a line. --/
def isSpaceOrBreak (c : Char) : Bool :=
  c == ' ' || isBreak c

/-- Whether a character is a space or a tab or ends a line. --/
def isGap (c : Char) : Bool :=
  isSpace c || isBreak c

/-- Whether a text starts with a character of a class, or has ended. --/
def startsWith (p : Char → Bool) : List Char → Bool
  | [] => true
  | c :: _ => p c

/-- Whether a character may stand in a name: a letter or digit of ASCII, a hyphen or an underscore. --/
def isNameChar (c : Char) : Bool :=
  c.isAlphanum || c == '-' || c == '_'

/-- Whether a text starts like a mark that separates documents. --/
def startsAsSeparator : List Char → Bool
  | '-' :: '-' :: '-' :: _ | '.' :: '.' :: '.' :: _ => true
  | _ => false

/-- Whether a text starts with a mark that separates documents. --/
def atSeparator : List Char → Bool
  | '-' :: '-' :: '-' :: rest => startsWith isGap rest
  | '.' :: '.' :: '.' :: rest => startsWith isGap rest
  | _ => false

/-- The break that a character makes: a line separator and a paragraph separator stay, all others become a line
    feed. --/
def breakOf (c : Char) : Char :=
  if c == '\u2028' || c == '\u2029' then c else '\n'

/-- A position: the characters ahead, the number of those behind, and the line and column; and whether the text is
    cut short, so that behind the characters ahead stands something that cannot be read. --/
structure Cursor where
  rest : List Char
  index : Nat
  line : Nat
  column : Nat
  cut : Bool
  deriving DecidableEq, Repr

namespace Cursor

def start (text : List Char) (cut : Bool := false) : Cursor :=
  ⟨text, 0, 0, 0, cut⟩

/-- Whether it can be told what stands in a number of places ahead, be it a character or the end of the text. --/
def sees (c : Cursor) : Nat → Bool
  | 0 => true
  | n + 1 => !c.cut || !(c.rest.drop n).isEmpty

/-- Passes one character. A byte order mark takes no column. --/
def step (c : Cursor) : Cursor :=
  match c.rest with
  | [] => c
  | x :: rest =>
    if isBreak x then ⟨rest, c.index + 1, c.line + 1, 0, c.cut⟩
    else if x == '\uFEFF' then ⟨rest, c.index + 1, c.line, c.column, c.cut⟩
    else ⟨rest, c.index + 1, c.line, c.column + 1, c.cut⟩

def advance (c : Cursor) : Nat → Cursor
  | 0 => c
  | n + 1 => c.step.advance n

/-- Passes all characters of a class that stand in a row. --/
def skip (c : Cursor) (p : Char → Bool) : Cursor :=
  c.advance (c.rest.takeWhile p).length

/-- Passes spaces as long as the column is below a limit. --/
def skipSpacesTo (c : Cursor) (limit : Nat) : Cursor :=
  c.advance ((c.rest.takeWhile (· == ' ')).length.min (limit - c.column))

/-- Passes the rest of the line if a comment starts here. --/
def skipComment (c : Cursor) : Cursor :=
  match c.rest with
  | '#' :: _ => c.skip fun x => !isBreak x
  | _ => c

/-- Passes a line end, if one is here: the break that it makes, and the position behind it. --/
def lineBreak? (c : Cursor) : Option (Char × Cursor) :=
  match c.rest with
  | x :: _ => if isBreak x then some (breakOf x, c.step) else none
  | [] => none

/-- Passes line ends, and before each of them spaces below a limit of the column: the breaks that they make, and
    the position behind the last and the spaces after it. --/
def breaksTo (c : Cursor) (limit : Nat) : List Char × Cursor :=
  go c.rest.length (c.skipSpacesTo limit)
where
  go : Nat → Cursor → List Char × Cursor
    | 0, c => ([], c)
    | fuel + 1, c => match c.lineBreak? with
      | some (b, c) =>
        let (bs, c) := go fuel (c.skipSpacesTo limit)
        (b :: bs, c)
      | none => ([], c)

end Cursor

end Retag.Markup

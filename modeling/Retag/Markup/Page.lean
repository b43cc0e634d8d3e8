import Retag.Markup.Cursor

/-! Pages: text that is being written, with what the next mark has to know of it. -/

namespace Retag.Markup

/-- A page: the characters written, the last one first; the column; whether the last thing written was a blank;
    whether nothing but marks of block collections stands on the line; and whether the text so far could go on on
    the next line. --/
structure Page where
  reversed : List Char := []
  column : Nat := 0
  afterBlank : Bool := true
  indenting : Bool := true
  openEnded : Bool := false
  deriving DecidableEq, Repr

namespace Page

def text (p : Page) : List Char :=
  p.reversed.reverse

/-- Writes characters within a scalar. --/
def write (p : Page) (cs : List Char) : Page :=
  { p with reversed := cs.reverse ++ p.reversed, column := p.column + cs.length }

/-- Writes characters without counting columns. --/
def writeUncounted (p : Page) (cs : List Char) : Page :=
  { p with reversed := cs.reverse ++ p.reversed }

/-- Says that something other than a blank or a mark was written. --/
def inText (p : Page) : Page :=
  { p with afterBlank := false, indenting := false }

/-- Writes a mark, apart from what is before it. --/
def mark (p : Page) (cs : List Char) : Page :=
  { p.write (if p.afterBlank then cs else ' ' :: cs) with afterBlank := false, indenting := false, openEnded := false }

/-- Writes the mark of an entry of a block collection, apart from what is before it. --/
def entryMark (p : Page) (c : Char) : Page :=
  { p.mark [c] with indenting := p.indenting }

/-- Writes a mark that follows directly. --/
def closeMark (p : Page) (cs : List Char) : Page :=
  { p.write cs with afterBlank := false, indenting := false, openEnded := false }

def lineBreak (p : Page) (c : Char) : Page :=
  { p with reversed := c :: p.reversed, column := 0, afterBlank := true, indenting := true }

/-- Goes to a column: on this line, if nothing but marks stands there and the column is ahead; else on the next. --/
def indent (p : Page) (n : Nat) : Page :=
  let p := if !p.indenting || n < p.column || (p.column == n && !p.afterBlank) then p.lineBreak '\n' else p
  if p.column < n then { p.write (List.replicate (n - p.column) ' ') with afterBlank := true } else p

end Page

end Retag.Markup

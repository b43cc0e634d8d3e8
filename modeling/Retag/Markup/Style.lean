import Retag.Markup.Cursor
import Retag.Markup.Tag

/-! The styles of scalars, and which of them a text can be written in. -/

namespace Retag.Markup

inductive Style where
  | plain
  | single
  | double
  | literal
  deriving DecidableEq, Repr

namespace Style

/-- Whether a character can be written as itself in every style but the double-quoted one. --/
def isOrdinary (c : Char) : Bool :=
  let n := c.toNat
  c == '\n' || (0x20 ≤ n && n ≤ 0x7e) ||
    ((n == 0x85 || (0xa0 ≤ n && n ≤ 0xd7ff) || (0xe000 ≤ n && n ≤ 0xfffd) || (0x10000 ≤ n && n < 0x10ffff)) && n != 0xfeff)

/-- Whether two neighbours in a row are of two classes. --/
def hasNeighbours {α : Type} (p q : α → Bool) : List α → Bool
  | a :: b :: rest => (p a && q b) || hasNeighbours p q (b :: rest)
  | _ => false

def isMultiline (cs : List Char) : Bool :=
  cs.any isBreak

def startsOrEnds (p : Char → Bool) (cs : List Char) : Bool :=
  (cs.head?.map p).getD false || (cs.getLast?.map p).getD false

/-- Whether a text starts with a character that would be taken for a mark. --/
def startsAsMark : List Char → Bool
  | [] => false
  | c :: rest =>
    "#,[]\x7b\x7d&*!|>'\"%@\x60".toList.contains c || ((c == '?' || c == ':' || c == '-') && startsWith isGap rest)

/-- Whether a text has a colon that stands apart from what follows. --/
def hasValueMark : List Char → Bool
  | [] => false
  | c :: rest => (c == ':' && startsWith isGap rest) || hasValueMark rest

/-- Whether a text would be taken for something else than a plain scalar. --/
def looksMarked (cs : List Char) : Bool :=
  startsAsSeparator cs || startsAsMark cs || hasValueMark cs.tail || hasNeighbours isGap (· == '#') cs

/-- Whether a text can be written in quotes or in lines: line ends have no spaces before them, and all characters
    are ordinary. --/
def isTidy (cs : List Char) : Bool :=
  !hasNeighbours (· == ' ') isBreak cs && cs.all isOrdinary

def allowsPlain (cs : List Char) : Bool :=
  isTidy cs && !isMultiline cs && !startsOrEnds (· == ' ') cs && !looksMarked cs

def allowsSingle (cs : List Char) : Bool :=
  isTidy cs && !hasNeighbours isBreak (· == ' ') cs

/-- Whether a text can be laid out in lines as it is. --/
def allowsLiteral (cs : List Char) : Bool :=
  !cs.isEmpty && isTidy cs && cs.getLast? != some ' '

/-- The style of a scalar. A text is plain if its form gives it its tag and nothing else forbids it. --/
def choose (tag : Tag) (cs : List Char) (literal simpleKey : Bool) : Style :=
  if literal then if !simpleKey && allowsLiteral cs then .literal else .double
  else if tag == Tag.ofForm cs && allowsPlain cs && !(simpleKey && cs.isEmpty) then .plain
  else if allowsSingle cs && !(simpleKey && isMultiline cs) then .single
  else .double

end Style

end Retag.Markup

import Retag.Markup.Token.Basic

/-! Scalars as indented blocks. A header says how the line ends after the last line count and, if the first line
    does not show it, how far the block is indented. In a folded block a line end between two lines that do not
    start with blanks stands for a space. -/

namespace Retag.Markup.Block

/-- What becomes of the line ends after the last line: all go, one stays, or all stay. --/
inductive Chomping where
  | strip
  | clip
  | keep
  deriving DecidableEq, Repr

/-- The header of a block: its chomping, and its indentation relative to what is around it. --/
structure Header where
  chomping : Chomping := .clip
  increment : Option Nat := none
  deriving DecidableEq, Repr

/-- The chomping that a sign asks for. --/
def chomping? (c : Char) : Option Chomping :=
  if c == '+' then some .keep else if c == '-' then some .strip else none

/-- The increment that a digit asks for; zero is none. --/
def increment? (c : Char) : Option Nat :=
  if '1' ≤ c && c ≤ '9' then some (c.toNat - 48) else none

/-- Reads the marks of a header, in either order. --/
def marks (c : Cursor) : Header × Cursor :=
  match c.rest with
  | [] => ({}, c)
  | x :: rest =>
    match chomping? x, increment? x with
    | some chomping, _ => match rest.head?.bind increment? with
      | some n => (⟨chomping, some n⟩, c.advance 2)
      | none => (⟨chomping, none⟩, c.step)
    | none, some n => match rest.head?.bind chomping? with
      | some chomping => (⟨chomping, some n⟩, c.advance 2)
      | none => (⟨.clip, some n⟩, c.step)
    | none, none => ({}, c)

/-- Passes the rest of a line that may hold nothing but a comment. --/
def lineRest (c : Cursor) : Except Fault Cursor :=
  let c := (c.skip (· == ' ')).skipComment
  match c.rest with
  | [] => .ok c
  | x :: _ => if isBreak x then .ok c.step else c.malformed

/-- Passes blank lines: their breaks, the greatest column that their spaces reach, and the position. --/
def leading : Nat → Cursor → List Char × Nat × Cursor
  | 0, c => ([], 0, c)
  | fuel + 1, c =>
    let c := c.skip (· == ' ')
    match c.lineBreak? with
    | none => ([], c.column, c)
    | some (b, after) =>
      let (bs, column, last) := leading fuel after
      (b :: bs, max c.column column, last)

/-- Reads the lines of a block from the first that has text: its text up to the last line that has, the break
    after that line, and the breaks of the blank lines behind it. --/
def lines (folded : Bool) (indent : Nat) : Nat → Cursor → List Char × List Char × List Char × Cursor
  | 0, c => ([], [], [], c)
  | fuel + 1, c =>
    let line := c.rest.takeWhile fun x => !isBreak x
    let c := c.advance line.length
    let (ending, c) := match c.lineBreak? with
      | some (b, c) => ([b], c)
      | none => ([], c)
    let (bs, c) := c.breaksTo indent
    if c.column = indent && !c.rest.isEmpty then
      let flush (cs : List Char) : Bool := !(cs.head?.map isSpace).getD false
      let joint :=
        if folded && ending == ['\n'] && flush line && flush c.rest then
          if bs.isEmpty then [' '] else []
        else ending
      let (text, last, tail, c) := lines folded indent fuel c
      (line ++ joint ++ bs ++ text, last, tail, c)
    else (line, ending, bs, c)

/-- Reads a block scalar, from the mark that starts it. Around it `outer` columns are taken. --/
def scan (folded : Bool) (outer : Nat) (c : Cursor) : Except Fault (List Char × Cursor) := do
  let (header, c) := marks c.step
  unless startsWith isSpaceOrBreak c.rest do c.malformed
  let c ← lineRest c
  let (bs, indent, c) := match header.increment with
    | none =>
      let (bs, column, c) := leading (c.rest.length + 1) c
      (bs, max outer column, c)
    | some n =>
      let indent := outer + n - 1
      let (bs, c) := c.breaksTo indent
      (bs, indent, c)
  let (text, last, tail, c) :=
    if c.column = indent && !c.rest.isEmpty then
      let (text, last, tail, c) := lines folded indent (c.rest.length + 1) c
      (bs ++ text, last, tail, c)
    else ([], [], bs, c)
  let ending := match header.chomping with
    | .strip => []
    | .clip => last
    | .keep => last ++ tail
  return (text ++ ending, c)

end Retag.Markup.Block

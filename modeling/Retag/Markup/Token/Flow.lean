import Retag.Markup.Token.Basic
import Retag.Text.Hex

/-! Scalars in quotes. Between single quotes two of them stand for one; between double quotes a backslash starts
    an escape. A line end within quotes, with the blanks around it, stands for a space, and several of them for
    one break less than they are. -/

namespace Retag.Markup.Quoted

open Text

/-- The character that a one-letter escape stands for. --/
def escape? (c : Char) : Option Char :=
  match c with
  | '0' => some '\x00'
  | 'a' => some '\x07'
  | 'b' => some '\x08'
  | 't' | '\t' => some '\t'
  | 'n' => some '\n'
  | 'v' => some '\x0b'
  | 'f' => some '\x0c'
  | 'r' => some '\r'
  | 'e' => some '\x1b'
  | ' ' => some ' '
  | '"' => some '"'
  | '\\' => some '\\'
  | '/' => some '/'
  | 'N' => some '\x85'
  | '_' => some '\xa0'
  | 'L' => some '\u2028'
  | 'P' => some '\u2029'
  | _ => none

/-- The number of hexadecimal digits after the letter of a numeric escape. --/
def escapeWidth? (c : Char) : Option Nat :=
  match c with
  | 'x' => some 2
  | 'u' => some 4
  | 'U' => some 8
  | _ => none

/-- What a number names: a character, or a half on its own. --/
def pointOf (n : Nat) : Except Fault Point :=
  if n.isValidChar then .ok (.char (Char.ofNat n))
  else if n < 0x110000 then .ok (.half (Fin.ofNat 0x800 (n - 0xd800)))
  else if n < 0x80000000 then .error (.broken .noCharacter)
  else .error (.broken .wideCharacter)

/-- Passes the blank lines after a line end: the breaks that they make, and the position of the next character. --/
def blankLines : Nat → Cursor → Except Fault (List Char × Cursor)
  | 0, c => c.malformed
  | fuel + 1, c => do
    if ← c.separates then c.malformed
    match (c.skip isSpace).lineBreak? with
    | some (b, c) => do
      let (bs, c) ← blankLines fuel c
      return (b :: bs, c)
    | none => return ([], c.skip isSpace)

/-- Passes spaces and tabs, or a line end with the blanks around it, between two words in quotes. --/
def gap (c : Cursor) : Except Fault (List Char × Cursor) :=
  let spaces := c.rest.takeWhile isSpace
  let c := c.skip isSpace
  match c.rest with
  | [] => c.malformed
  | _ => match c.lineBreak? with
    | none => .ok (spaces, c)
    | some (b, c) => do
      let (bs, c) ← blankLines (c.rest.length + 1) c
      return ((if b ≠ '\n' then [b] else if bs.isEmpty then [' '] else []) ++ bs, c)

/-- Passes an escape, from the character after its backslash: what it stands for. --/
def escape (c : Cursor) : Except Fault (List Point × Cursor) :=
  match c.rest with
  | [] => c.malformed
  | x :: _ =>
    match escape? x, escapeWidth? x, c.lineBreak? with
    | some y, _, _ => .ok ([.char y], c.step)
    | none, some width, _ =>
      let c := c.step
      let digits := (c.rest.take width).takeWhile fun d => (hexValue? d).isSome
      match digits.length == width, hexNumber? digits with
      | true, some n => do
        return ([← pointOf n], c.advance width)
      | _, _ => c.malformed digits.length
    | none, none, some (_, c) => do
      let (bs, c) ← blankLines (c.rest.length + 1) c
      return (bs.map .char, c)
    | none, none, none => c.malformed

/-- Reads on within quotes up to the closing one: what the text stands for, and the position after the quote. --/
def body (double : Bool) : Nat → Cursor → Except Fault (List Point × Cursor)
  | 0, c => c.malformed
  | fuel + 1, c =>
    let andOn (piece : List Point) (c : Cursor) : Except Fault (List Point × Cursor) := do
      let (text, c) ← body double fuel c
      return (piece ++ text, c)
    match c.rest with
    | [] => c.malformed
    | '\'' :: '\'' :: _ => if double then andOn [.char '\''] c.step else andOn [.char '\''] (c.advance 2)
    | '\'' :: _ => if double then andOn [.char '\''] c.step else .ok ([], c.step)
    | '"' :: _ => if double then .ok ([], c.step) else andOn [.char '"'] c.step
    | '\\' :: _ =>
      if double then do
        let (piece, c) ← escape c.step
        andOn piece c
      else andOn [.char '\\'] c.step
    | x :: _ =>
      if isGap x then do
        let (piece, c) ← gap c
        andOn (piece.map .char) c
      else andOn [.char x] c.step

/-- Reads a scalar in quotes, from its first quote on. --/
def scan (double : Bool) (c : Cursor) : Except Fault (Wobbly × Cursor) := do
  let (points, c) ← body double c.rest.length c.step
  return (.ofPoints points, c)

end Retag.Markup.Quoted

import Retag.Text.Encoding

/-! The text of a file as a reader of markup meets it. Every line end is written as one line feed. The text
    arrives in pieces, so a byte or a character that is no text spoils only what arrives with it or later: what
    came before can still be read, and may already be found faulty. -/

namespace Retag.Text

/-- Writes every line end, whether a carriage return, a line feed or both, as one line feed. --/
def unifyLineEnds : List Char → List Char
  | [] => []
  | '\r' :: '\n' :: rest => '\n' :: unifyLineEnds rest
  | '\r' :: rest => '\n' :: unifyLineEnds rest
  | c :: rest => c :: unifyLineEnds rest

/-- Whether a character may stand in markup. --/
def isMarkupChar (c : Char) : Bool :=
  let n := c.toNat
  n == 9 || n == 10 || n == 13 || (0x20 ≤ n && n ≤ 0x7e) || n == 0x85 || (0xa0 ≤ n && n ≤ 0xd7ff) ||
    (0xe000 ≤ n && n ≤ 0xfffd) || 0x10000 ≤ n

/-- What stands after the characters that can be read. --/
inductive Ending where
  | complete
  /-- Bytes follow that are no text in the encoding. --/
  | undecodable
  /-- A character follows that may not stand in markup. --/
  | unprintable
  /-- Nothing can be read, as the byte order mark is missing. --/
  | unmarked
  deriving DecidableEq, Repr

/-- The characters of a file that can be read, and what follows them. --/
structure Source where
  text : List Char
  ending : Ending
  deriving DecidableEq, Repr

namespace Source

/-- The number of characters in a piece. --/
def pieceSize : Nat := 4096

/-- The least number of bytes in a block. --/
def blockSize : Nat := 8192

/-- Keeps the whole pieces before a position. The first two pieces arrive together. --/
def wholePieces (position : Nat) : Nat :=
  if position < 2 * pieceSize then 0 else position / pieceSize * pieceSize

/-- The source of a text that could be decoded. --/
def ofChars (cs : List Char) : Source :=
  let good := cs.takeWhile isMarkupChar
  if good.length = cs.length then ⟨cs, .complete⟩ else ⟨cs.take (wholePieces good.length), .unprintable⟩

/-- A file on its way: the bytes to come, those that came and are not decoded, and whether a carriage return waits
    for the character behind it; the number of characters that wait for their piece, and of those that arrived; and
    the block before, in bytes, with a byte order mark, and in characters. --/
structure Inflow where
  coming : List UInt8
  mark : Nat
  started : List UInt8 := []
  returned : Bool := false
  waiting : Nat := 0
  arrived : Nat := 0
  blockBytes : Nat := 0
  blockChars : Nat := 0

namespace Inflow

/-- The number of bytes that are read next. Blocks grow with the mean width of the characters in the block before, so
    that one block is likely to fill a piece. --/
def nextSize (s : Inflow) : Nat :=
  let wanted := pieceSize - s.waiting
  if s.blockChars = 0 then blockSize
  else max blockSize (max s.blockBytes s.blockChars * wanted / s.blockChars)

/-- Whether bytes that are left can still become a character. --/
def mayGrow (e : Encoding) (rest : List UInt8) : Bool :=
  rest.isEmpty || startsChar e rest

/-- Reads a block; none if it shows bytes that are no text. --/
def readBlock (e : Encoding) (s : Inflow) : Option Inflow :=
  let size := s.nextSize - s.mark
  let block := s.coming.take size
  let d := decode e (s.started ++ block)
  if block.isEmpty || !mayGrow e d.rest then none
  else
    let chars := if s.returned && !d.chars.isEmpty then '\r' :: d.chars else d.chars
    let returned := if d.chars.isEmpty then s.returned else chars.getLast? == some '\r'
    let count := (unifyLineEnds (if returned then chars.dropLast else chars)).length
    some { s with
      coming := s.coming.drop size
      mark := 0
      started := d.rest
      returned
      waiting := s.waiting + count
      blockBytes := block.length + s.mark
      blockChars := count }

/-- The number of characters that arrive before a block shows bytes that are no text. --/
def run (e : Encoding) : Nat → Inflow → Nat
  | 0, s => s.arrived
  | fuel + 1, s =>
    if pieceSize ≤ s.waiting then
      run e fuel { s with waiting := s.waiting - pieceSize, arrived := s.arrived + pieceSize }
    else match s.readBlock e with
      | none => s.arrived
      | some s => run e fuel s

end Inflow

/-- The source of bytes behind a byte order mark. --/
def ofMarked (e : Encoding) (mark : Nat) (bytes : List UInt8) : Source :=
  let decoded := decode e bytes
  let text := unifyLineEnds decoded.chars
  if decoded.rest.isEmpty then ofChars text
  else
    let count := wholePieces (Inflow.run e (2 * bytes.length + 2) { coming := bytes, mark })
    let readable := ofChars (text.take count)
    if readable.ending = .complete then { readable with ending := .undecodable } else readable

/-- The source that a file's bytes give in an encoding. That a byte order mark is missing shows with the first block,
    unless the block is no text. --/
def ofBytes (e : Encoding) (bytes : List UInt8) : Source :=
  match start e bytes with
  | .plain e mark rest => ofMarked e mark rest
  | .unmarked =>
    let d := decode e (bytes.take blockSize)
    ⟨[], if d.chars.isEmpty || !Inflow.mayGrow e d.rest then .undecodable else .unmarked⟩

end Source

end Retag.Text

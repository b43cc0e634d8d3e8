import Retag.Text.Hex
import Retag.Text.Printable
import Retag.Text.Wobbly

/-! The quoted form of a text or of a row of bytes, as messages and shown values use it. Single quotes stand
    around the text unless it holds a single quote and no double quote; the quote in use, the backslash and
    everything without a visible form is escaped. -/

namespace Retag.Text

/-- The quote that stands around a text of these characters. --/
def quoteFor (cs : List Char) : Char :=
  if cs.contains '\'' && !cs.contains '"' then '"' else '\''

/-- A character without a visible form, by the shortest of the three numeric escapes. --/
def numericEscape (c : Char) : List Char :=
  let n := c.toNat
  if n < 0x100 then '\\' :: 'x' :: hexDigits false 2 n
  else if n < 0x10000 then '\\' :: 'u' :: hexDigits false 4 n
  else '\\' :: 'U' :: hexDigits false 8 n

/-- A character as it stands between two quotes. --/
def quotedChar (quote c : Char) : List Char :=
  if c = quote || c = '\\' then ['\\', c]
  else if c = '\t' then ['\\', 't']
  else if c = '\n' then ['\\', 'n']
  else if c = '\r' then ['\\', 'r']
  else if isPrintable c then [c]
  else numericEscape c

/-- The quoted form of a text. --/
def quoted (s : String) : String :=
  let quote := quoteFor s.toList
  String.ofList (quote :: s.toList.flatMap (quotedChar quote) ++ [quote])

/-- A place of a text as it stands between two quotes. --/
def quotedPoint (quote : Char) : Point → List Char
  | .char c => quotedChar quote c
  | .half n => '\\' :: 'u' :: hexDigits false 4 (Point.number n)

/-- The quoted form of a text that may be torn. --/
def Wobbly.quoted : Wobbly → String
  | .whole s => Text.quoted s
  | .torn t =>
    let quote := quoteFor t.chars
    String.ofList (quote :: t.points.flatMap (quotedPoint quote) ++ [quote])

/-- A byte as it stands between two quotes: ASCII is shown, all else is escaped. --/
def quotedByte (quote : Char) (b : UInt8) : List Char :=
  if b < 128 then quotedChar quote (Char.ofNat b.toNat) else numericEscape (Char.ofNat b.toNat)

/-- The quoted form of a row of bytes. --/
def quotedBytes (bs : List UInt8) : String :=
  let quote := quoteFor (bs.map fun b => Char.ofNat b.toNat)
  String.ofList ('b' :: quote :: bs.flatMap (quotedByte quote) ++ [quote])

end Retag.Text

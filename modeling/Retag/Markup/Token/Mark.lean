import Retag.Markup.Token.Basic
import Retag.Number.Numeral
import Retag.Text.Encoding
import Retag.Text.Hex

/-! Tokens that name something: anchors, aliases, tags and the directives in front of a document. -/

namespace Retag.Markup.Mark

open Text

def atSpaceOrBreak (cs : List Char) : Bool :=
  startsWith isSpaceOrBreak cs

/-- Whether a character may stand behind the name of an anchor. --/
def endsName (c : Char) : Bool :=
  isGap c || "?:,]\x7d%@\x60".toList.contains c

def name (c : Cursor) : Except Fault (String × Cursor) := do
  let c := c.step
  let letters := c.rest.takeWhile isNameChar
  let c := c.advance letters.length
  if letters.isEmpty || !startsWith endsName c.rest then c.malformed
  return (String.ofList letters, c)

/-- Whether a character may stand in a tag as itself. --/
def isTagChar (c : Char) : Bool :=
  c.isAlphanum || "-;/?:@&=+$,_.!~*'()[]".toList.contains c

/-- Reads bytes written by escapes, two digits behind a percent sign for each. --/
def escapedBytes : Nat → Cursor → Except Fault (List UInt8 × Cursor)
  | 0, c => .ok ([], c)
  | fuel + 1, c => match c.rest with
    | '%' :: rest =>
      let digits := (rest.take 2).takeWhile fun d => (hexValue? d).isSome
      match digits.length == 2, hexNumber? digits with
      | true, some n => do
        let (bs, c) ← escapedBytes fuel (c.advance 3)
        return (UInt8.ofNat n :: bs, c)
      | _, _ => c.malformed (1 + digits.length)
    | _ => .ok ([], c)

/-- Reads on within a tag. --/
def tagBody : Nat → Cursor → Except Fault (List Char × Cursor)
  | 0, c => .ok ([], c)
  | fuel + 1, c => match c.rest with
    | [] => .ok ([], c)
    | x :: _ =>
      if x == '%' then do
        let (bs, c) ← escapedBytes c.rest.length c
        let some piece := (decode .utf8 bs).text? | c.malformed
        let (text, c) ← tagBody fuel c
        return (piece ++ text, c)
      else if isTagChar x then do
        let (text, c) ← tagBody fuel c.step
        return (x :: text, c)
      else .ok ([], c)

/-- Reads the text of a tag, which is not empty. An escape may write an empty text. --/
def tagText (c : Cursor) : Except Fault (String × Cursor) := do
  let (text, after) ← tagBody c.rest.length c
  if after.rest.length = c.rest.length then c.malformed
  return (String.ofList text, after)

/-- Reads a handle: an exclamation mark, or a name between two of them. --/
def handle (c : Cursor) : Except Fault (String × Cursor) :=
  match c.rest with
  | '!' :: rest =>
    if rest.head? == some ' ' then .ok ("!", c.step)
    else
      let letters := rest.takeWhile isNameChar
      let c := c.advance (letters.length + 1)
      match c.rest with
      | '!' :: _ => .ok (String.ofList ('!' :: letters ++ ['!']), c.step)
      | _ => c.malformed
  | _ => c.malformed

/-- Reads a tag: one in angle brackets, a lone exclamation mark, or a handle and the rest of the tag. --/
def tag (c : Cursor) : Except Fault (Token × Cursor) := do
  let (token, c) ← match c.rest.tail with
    | '<' :: _ => do
      let (text, c) ← tagText (c.advance 2)
      match c.rest with
      | '>' :: _ => pure (Token.tag none text, c.step)
      | _ => c.malformed
    | cs =>
      if startsWith isGap cs then pure (Token.tag none "!", c.step)
      else
        let word := cs.takeWhile fun x => !isSpaceOrBreak x
        if word.contains '!' then do
          let (h, c) ← handle c
          let (text, c) ← tagText c
          pure (Token.tag (some h) text, c)
        else do
          c.require (word.length + 2)
          let (text, c) ← tagText c.step
          pure (Token.tag (some "!") text, c)
  unless atSpaceOrBreak c.rest do c.malformed
  return (token, c)

/-- Reads a number of a version. --/
def versionNumber (c : Cursor) : Except Fault (Nat × Cursor) := do
  let digits := c.rest.takeWhile Char.isDigit
  if digits.isEmpty then c.malformed
  c.require (digits.length + 1)
  match Number.readInt? 10 digits with
  | some n => return (n.toNat, c.advance digits.length)
  | none => .error (.broken .badNumeral)

/-- Reads a directive, from its percent sign to the end of its line. --/
def directive (c : Cursor) : Except Fault (Token × Cursor) := do
  let c := c.step
  let letters := c.rest.takeWhile isNameChar
  let c := c.advance letters.length
  if letters.isEmpty || !atSpaceOrBreak c.rest then c.malformed
  let word := String.ofList letters
  let (token, c) ←
    if word = "YAML" then do
      let (major, c) ← versionNumber (c.skip (· == ' '))
      match c.rest with
      | '.' :: _ =>
        let (_, c) ← versionNumber c.step
        unless atSpaceOrBreak c.rest do c.malformed
        pure (Token.version major, c)
      | _ => c.malformed
    else if word = "TAG" then do
      let (h, c) ← handle (c.skip (· == ' '))
      unless c.rest.head? == some ' ' do c.malformed
      let (meaning, c) ← tagText (c.skip (· == ' '))
      unless atSpaceOrBreak c.rest do c.malformed
      pure (Token.handle h meaning, c)
    else pure (Token.otherDirective, c.skip fun x => !isBreak x)
  let c := (c.skip (· == ' ')).skipComment
  match c.rest with
  | [] => return (token, c)
  | x :: _ => if isBreak x then return (token, c.step) else c.malformed

end Retag.Markup.Mark

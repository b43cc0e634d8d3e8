import Retag.Markup.Token.Basic

/-! Scalars without quotes. A plain scalar ends at a colon or a number sign that stands apart, in a flow collection
    also at its marks, and at a line that is indented too little. A line end within it stands for a space, and
    several of them for one break less than they are. -/

namespace Retag.Markup.Plain

/-- Whether a character may start a plain scalar, given the text from it on. --/
def canStart (flow : Bool) : List Char → Bool
  | [] => false
  | c :: rest =>
    if isGap c then false
    else if c == '-' then !startsWith isGap rest
    else if c == '?' || c == ':' then !flow && !startsWith isGap rest
    else !",[]\x7b\x7d#&*!|>'\"%@\x60".toList.contains c

/-- Whether a character is a mark of flow collections. --/
def isFlowMark (c : Char) : Bool :=
  c == ',' || c == '[' || c == ']' || c == '{' || c == '}'

/-- Whether a word ends before the text. --/
def endsWord (flow : Bool) : List Char → Bool
  | [] => true
  | c :: rest =>
    isGap c || (c == ':' && startsWith (fun d => isGap d || (flow && isFlowMark d)) rest) ||
      (flow && (isFlowMark c || c == '?'))

/-- The word at the start of a text. --/
def word (flow : Bool) : List Char → List Char
  | [] => []
  | c :: rest => if endsWord flow (c :: rest) then [] else c :: word flow rest

/-- What follows a word: the spaces or breaks before the next one, if the scalar may go on, and the position; and
    whether a line end was passed. --/
structure Gap where
  text : Option (List Char)
  cursor : Cursor
  broken : Bool

/-- Passes blank lines: the breaks that they make, or none at a mark that separates documents. --/
def blankLines : Nat → Cursor → Except Fault (Option (List Char) × Cursor)
  | 0, c => .ok (some [], c)
  | fuel + 1, c => do
    let c := c.skip (· == ' ')
    c.require 1
    match c.lineBreak? with
    | none => return (some [], c)
    | some (b, c) =>
      if ← c.separates then return (none, c)
      let (bs, c) ← blankLines fuel c
      return (bs.map (b :: ·), c)

/-- Passes what follows a word. --/
def gap (c : Cursor) : Except Fault Gap := do
  let spaces := c.rest.takeWhile (· == ' ')
  let c := c.skip (· == ' ')
  c.require 1
  match c.lineBreak? with
  | none => return ⟨some spaces, c, false⟩
  | some (b, c) =>
    if ← c.separates then return ⟨none, c, true⟩
    let (bs, c) ← blankLines c.rest.length c
    -- A single line end stands for a space; of several, the first one counts for nothing.
    return ⟨bs.map fun bs => (if b ≠ '\n' then [b] else if bs.isEmpty then [' '] else []) ++ bs, c, true⟩

/-- Goes on only if it can be told whether the word goes on here. --/
def requireEnd (c : Cursor) : Except Fault Unit :=
  c.require (if c.rest.head? == some ':' then 2 else 1)

/-- Reads on within a plain scalar whose lines are indented by `indent` at least: its text, the position, and
    whether the last thing passed was a line end. --/
def body (flow : Bool) (indent : Nat) : Nat → Cursor → Except Fault (List Char × Cursor × Bool)
  | 0, c => .ok ([], c, false)
  | fuel + 1, c => do
    let w := word flow c.rest
    let c := c.advance w.length
    requireEnd c
    let g ← gap c
    match g.text with
    | none => return (w, g.cursor, g.broken)
    | some between =>
      let next := g.cursor.rest
      if between.isEmpty || next.head? == some '#' || (!flow && g.cursor.column < indent) then
        return (w, g.cursor, g.broken)
      requireEnd g.cursor
      if (word flow next).isEmpty then return (w, g.cursor, g.broken)
      let (text, c, broken) ← body flow indent fuel g.cursor
      return (w ++ between ++ text, c, broken)

/-- Reads a plain scalar. --/
def scan (flow : Bool) (indent : Nat) (c : Cursor) : Except Fault (List Char × Cursor × Bool) :=
  body flow indent c.rest.length c

end Retag.Markup.Plain

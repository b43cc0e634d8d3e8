import Retag.Markup.Token.Block
import Retag.Markup.Token.Flow
import Retag.Markup.Token.Mark
import Retag.Markup.Token.Plain
import Retag.Text.Source

/-! The tokens of a text. Indentation opens and closes block collections. A simple key shows itself only by the
    colon behind it, on its line and within 1024 characters; until then every place where one might start is kept
    in mind, and the colon puts the key's mark in front of it. -/

namespace Retag.Markup

open Text

/-- A place where a simple key may have started: the number of its first token, whether nothing else can stand
    there, and the position. --/
structure Candidate where
  number : Nat
  required : Bool
  index : Nat
  line : Nat
  column : Nat
  deriving DecidableEq, Repr

/-- The state of reading: the tokens so far; the columns of the open block collections, the innermost first; the
    candidate on the current level, and those on the levels of the flow collections around it, the innermost
    first; and whether a simple key may start next. --/
structure Scanner where
  cursor : Cursor
  tokens : Array Token := #[]
  indents : List Nat := []
  candidate : Option Candidate := none
  outer : List (Option Candidate) := []
  keyAllowed : Bool := true

namespace Scanner

def inFlow (s : Scanner) : Bool :=
  !s.outer.isEmpty

def push (s : Scanner) (t : Token) : Scanner :=
  { s with tokens := s.tokens.push t }

def moveTo (s : Scanner) (c : Cursor) : Scanner :=
  { s with cursor := c }

/-- The least column of what belongs to the innermost block collection. --/
def blockColumn (s : Scanner) : Nat :=
  match s.indents with
  | [] => 0
  | i :: _ => i + 1

/-- Passes blanks, comments and line ends. In block context a key may start on a new line. --/
def passBlanks : Nat → Scanner → Scanner
  | 0, s => s
  | fuel + 1, s =>
    let c := (s.cursor.skip (· == ' ')).skipComment
    match c.lineBreak? with
    | some (_, c) => passBlanks fuel { s with cursor := c, keyAllowed := s.keyAllowed || !s.inFlow }
    | none => s.moveTo c

/-- Passes what stands before the next token. --/
def toNextToken (s : Scanner) : Scanner :=
  let c := match s.cursor.index, s.cursor.rest with
    | 0, '\uFEFF' :: _ => s.cursor.step
    | _, _ => s.cursor
  passBlanks (c.rest.length + 1) (s.moveTo c)

/-- Whether a candidate can still become a key at a position. --/
def isFresh (c : Cursor) (k : Candidate) : Bool :=
  k.line == c.line && c.index ≤ k.index + 1024

/-- Drops the candidate of a level if it is stale. --/
def dropStale (c : Cursor) (k : Option Candidate) : Except Fault (Option Candidate) :=
  match k with
  | none => .ok none
  | some k => if isFresh c k then .ok (some k) else if k.required then c.malformed else .ok none

/-- Drops all stale candidates. --/
def forgetStale (s : Scanner) : Except Fault Scanner := do
  let candidate ← dropStale s.cursor s.candidate
  let outer ← s.outer.mapM (dropStale s.cursor)
  return { s with candidate, outer }

/-- Drops the candidate of the current level. --/
def forget (s : Scanner) : Except Fault Scanner :=
  match s.candidate with
  | some k => if k.required then s.cursor.malformed else .ok { s with candidate := none }
  | none => .ok s

/-- Keeps the current position in mind as a place where a simple key may start. --/
def remember (s : Scanner) : Except Fault Scanner := do
  if s.keyAllowed then
    let s ← s.forget
    let c := s.cursor
    let required := !s.inFlow && s.indents.head? == some c.column
    return { s with candidate := some ⟨s.tokens.size, required, c.index, c.line, c.column⟩ }
  else return s

/-- Closes the block collections that are indented more than a column. --/
def unwindTo (s : Scanner) (column : Nat) : Scanner :=
  if s.inFlow then s
  else
    let closed := s.indents.takeWhile (column < ·)
    { s with
      indents := s.indents.drop closed.length
      tokens := s.tokens ++ Array.replicate closed.length Token.blockEnd }

def unwindAll (s : Scanner) : Scanner :=
  if s.inFlow then s
  else { s with indents := [], tokens := s.tokens ++ Array.replicate s.indents.length Token.blockEnd }

/-- Whether a block collection at a column is a new one. --/
def opensAt (s : Scanner) (column : Nat) : Bool :=
  match s.indents with
  | [] => true
  | i :: _ => i < column

/-- Opens a block collection at the current column, unless one is open there. --/
def openBlock (s : Scanner) (t : Token) : Scanner :=
  let column := s.cursor.column
  if s.opensAt column then { s.push t with indents := column :: s.indents } else s

/-- A mark of one character that cannot be part of a key. --/
def mark (s : Scanner) (t : Token) (width : Nat) : Scanner :=
  (s.moveTo (s.cursor.advance width)).push t

def streamEnd (s : Scanner) : Except Fault Scanner := do
  let s ← s.unwindAll.forget
  return { s.push .streamEnd with keyAllowed := false, candidate := none, outer := [] }

def directive (s : Scanner) : Except Fault Scanner := do
  let s ← s.unwindAll.forget
  let (t, c) ← Mark.directive s.cursor
  return { (s.moveTo c).push t with keyAllowed := false }

/-- A mark that separates documents. --/
def separator (s : Scanner) (t : Token) : Except Fault Scanner := do
  let s ← s.unwindAll.forget
  return { s.mark t 3 with keyAllowed := false }

def flowStart (s : Scanner) (t : Token) : Except Fault Scanner := do
  let s ← s.remember
  return { s.mark t 1 with outer := s.candidate :: s.outer, candidate := none, keyAllowed := true }

def flowEnd (s : Scanner) (t : Token) : Except Fault Scanner := do
  let s ← s.forget
  match s.outer with
  | [] => s.cursor.malformed 1
  | k :: outer => return { s.mark t 1 with outer, candidate := k, keyAllowed := false }

/-- The mark between the entries of a flow collection. --/
def flowEntry (s : Scanner) : Except Fault Scanner := do
  let s ← s.forget
  return { s.mark .flowEntry 1 with keyAllowed := true }

/-- The mark of an item of a block sequence. --/
def blockEntry (s : Scanner) : Except Fault Scanner := do
  if !s.inFlow && !s.keyAllowed then s.cursor.malformed
  let s := if s.inFlow then s else s.openBlock .blockSequenceStart
  let s ← s.forget
  return { s.mark .blockEntry 1 with keyAllowed := true }

/-- The mark of a key that may be anything. --/
def key (s : Scanner) : Except Fault Scanner := do
  if !s.inFlow && !s.keyAllowed then s.cursor.malformed
  let s := if s.inFlow then s else s.openBlock .blockMappingStart
  let s ← s.forget
  return { s.mark .key 1 with keyAllowed := !s.inFlow }

/-- Makes a candidate a key: its mark goes in front of it, and the start of a mapping if it is the first key of
    one. --/
def confirm (s : Scanner) (k : Candidate) : Scanner :=
  let opens := !s.inFlow && s.opensAt k.column
  let marks := if opens then [Token.blockMappingStart, Token.key] else [Token.key]
  { s with
    tokens := s.tokens.extract 0 k.number ++ marks.toArray ++ s.tokens.extract k.number s.tokens.size
    indents := if opens then k.column :: s.indents else s.indents
    candidate := none }

/-- The mark of a value. --/
def value (s : Scanner) : Except Fault Scanner :=
  match s.candidate with
  | some k => .ok { (s.confirm k).mark .value 1 with keyAllowed := false }
  | none => do
    if !s.inFlow && !s.keyAllowed then s.cursor.malformed
    let s := if s.inFlow then s else s.openBlock .blockMappingStart
    return { s.mark .value 1 with keyAllowed := !s.inFlow }

/-- A token that may be part of a simple key. --/
def inKey (s : Scanner) (read : Cursor → Except Fault (Token × Cursor)) : Except Fault Scanner := do
  let s ← s.remember
  let (t, c) ← read s.cursor
  return { (s.moveTo c).push t with keyAllowed := false }

def blockScalar (s : Scanner) (folded : Bool) : Except Fault Scanner := do
  let s ← s.forget
  let (text, c) ← Block.scan folded (max 1 s.blockColumn) s.cursor
  return { (s.moveTo c).push (.scalar (String.ofList text) false) with keyAllowed := true }

def quoted (s : Scanner) (double : Bool) : Except Fault Scanner :=
  s.inKey fun c => do
    let (text, c) ← Quoted.scan double c
    return (.scalar text false, c)

def plain (s : Scanner) : Except Fault Scanner := do
  let s ← s.remember
  let (text, c, broken) ← Plain.scan s.inFlow s.blockColumn s.cursor
  return { (s.moveTo c).push (.scalar (String.ofList text) true) with keyAllowed := broken }

/-- Reads the next token, which starts at the position. --/
def token (s : Scanner) : Except Fault Scanner := do
  let c := s.cursor
  let apart := startsWith isGap c.rest.tail
  let atStart := c.column == 0
  match c.rest with
  | [] => if c.cut then c.malformed else s.streamEnd
  | x :: rest =>
    -- Three marks at the start of a line end the document, whatever is open.
    if atStart && (x == '-' || x == '.') then
      if ← c.separates then return ← s.separator (if x == '-' then .documentStart else .documentEnd)
    -- Whether these characters are marks shows with the character behind them.
    if x == '-' || (!s.inFlow && (x == '?' || x == ':')) then c.require 2
    if x == '%' && atStart then s.directive
    else match x with
      | '[' => s.flowStart .flowSequenceStart
      | '{' => s.flowStart .flowMappingStart
      | ']' => s.flowEnd .flowSequenceEnd
      | '}' => s.flowEnd .flowMappingEnd
      | ',' => s.flowEntry
      | '*' => s.inKey fun c => do
        let (name, c) ← Mark.name c
        return (.alias name, c)
      | '&' => s.inKey fun c => do
        let (name, c) ← Mark.name c
        return (.anchor name, c)
      | '!' => s.inKey Mark.tag
      | '\'' => s.quoted false
      | '"' => s.quoted true
      | _ =>
        if x == '-' && apart then s.blockEntry
        else if x == '?' && (s.inFlow || apart) then s.key
        else if x == ':' && (s.inFlow || apart) then s.value
        else if x == '|' && !s.inFlow then s.blockScalar false
        else if x == '>' && !s.inFlow then s.blockScalar true
        else if Plain.canStart s.inFlow (x :: rest) then s.plain
        else c.malformed 1

/-- Passes to the next token and reads it. Behind it one more place is looked at. --/
def next (s : Scanner) : Except Fault Scanner := do
  let s ← s.toNextToken.forgetStale
  let s ← (s.unwindTo s.cursor.column).token
  s.cursor.require 1
  s.forgetStale

/-- The number of tokens that can be used before the next one is read: those before the first candidate. --/
def usable (s : Scanner) : Nat :=
  ((s.candidate :: s.outer).filterMap (·.map Candidate.number)).foldl min s.tokens.size

end Scanner

/-- The tokens of a text up to the end of the text or to a fault. --/
structure TokenStream where
  tokens : List Token
  fault : Option Fault
  deriving DecidableEq, Repr

namespace TokenStream

/-- Reads on to the end of the text. --/
def run : Nat → Scanner → TokenStream
  | 0, s => ⟨s.tokens.toList.take s.usable, some .unfinished⟩
  | fuel + 1, s =>
    match s.next with
    | .error f => ⟨s.tokens.toList.take s.usable, some f⟩
    | .ok t => if t.tokens.back? == some .streamEnd then ⟨t.tokens.toList, none⟩ else run fuel t

/-- The tokens of a source. --/
def ofSource (s : Source) : TokenStream :=
  run (s.text.length + 1) { cursor := .start s.text (s.ending != .complete) }

end TokenStream

end Retag.Markup

import Retag.Failure
import Retag.Markup.Cursor
import Retag.Text.Wobbly

/-! Tokens of markup, and what can be wrong with a text. -/

namespace Retag.Markup

/-- A token. The text of a scalar is what the scalar stands for, without quotes and line folding. --/
inductive Token where
  | streamEnd
  /-- The major number of the version that the text asks for. --/
  | version (major : Nat)
  /-- A short form of tags and what it stands for. --/
  | handle (name meaning : String)
  | otherDirective
  | documentStart
  | documentEnd
  | blockSequenceStart
  | blockMappingStart
  | blockEnd
  | flowSequenceStart
  | flowSequenceEnd
  | flowMappingStart
  | flowMappingEnd
  | blockEntry
  | flowEntry
  | key
  | value
  | alias (name : String)
  | anchor (name : String)
  /-- A tag, with the handle that its short form starts with. --/
  | tag (handle : Option String) (rest : String)
  | scalar (text : Text.Wobbly) (plain : Bool)
  deriving DecidableEq, Repr

/-- What is wrong with a text: it is no markup; or it is cut short too early to tell; or reading it breaks down. --/
inductive Fault where
  | malformed
  | unfinished
  | broken (why : Breakdown)
  deriving DecidableEq, Repr

namespace Cursor

/-- Goes on only if it can be told what stands in a number of places ahead. --/
def require (c : Cursor) (n : Nat) : Except Fault Unit :=
  if c.sees n then .ok () else .error .unfinished

/-- The text is no markup, as the next place shows together with a number of places behind it. --/
def malformed {α : Type} (c : Cursor) (ahead : Nat := 0) : Except Fault α :=
  .error (if c.sees (ahead + 1) then .malformed else .unfinished)

/-- Whether a mark that separates documents stands here. Three places are looked at, and the one behind them if they
    hold the characters of such a mark. --/
def separates (c : Cursor) : Except Fault Bool := do
  c.require 3
  if startsAsSeparator c.rest then c.require 4
  return atSeparator c.rest

end Cursor

end Retag.Markup

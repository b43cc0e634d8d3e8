import Retag.Text.Digit

/-! Single words of a command line. A word that starts with a hyphen is an option if it names one, in full or by
    the start of its long name; a value may follow an equals sign. Numbers below zero and words with a blank in
    them are operands all the same. The first word of two hyphens separates: what follows it holds operands. -/

namespace Retag.CommandLine

open Text

inductive Flag where
  | help
  | version
  | file
  | image
  | dryRun
  deriving DecidableEq, Repr

namespace Flag

def long : Flag → String
  | .help => "--help"
  | .version => "--version"
  | .file => "--file"
  | .image => "--image"
  | .dryRun => "--dry-run"

/-- All names, as messages write them. --/
def label : Flag → String
  | .help => "-h/--help"
  | f => f.long

/-- Whether a value follows. --/
def takesValue : Flag → Bool
  | .version | .file | .image => true
  | .help | .dryRun => false

end Flag

/-- What a word is. --/
inductive Word where
  | operand (text : String)
  /-- An option, with the value that stands in the same word. --/
  | flag (flag : Flag) (value : Option String)
  /-- A word that looks like an option and names none. --/
  | stray (text : String)
  | separator
  deriving DecidableEq, Repr

/-- A word that starts the names of several options. --/
structure Ambiguity where
  word : String
  flags : List Flag
  deriving DecidableEq, Repr

/-- Whether a text is a number below zero; a line end may follow it. --/
def isBelowZero : List Char → Bool
  | '-' :: cs =>
    let cs := if cs.getLast? = some '\n' then cs.dropLast else cs
    match cs.dropWhile isDecimal with
    | [] => !cs.isEmpty
    | '.' :: places => !places.isEmpty && places.all isDecimal
    | _ => false
  | _ => false

/-- A word before an equals sign, and what follows the sign. --/
def splitValue (cs : List Char) : List Char × Option (List Char) :=
  match cs.dropWhile (· ≠ '=') with
  | [] => (cs, none)
  | _ :: value => (cs.takeWhile (· ≠ '='), some value)

/-- The options whose long names start with a text. --/
def candidates (flags : List Flag) (start : List Char) : List Flag :=
  flags.filter fun f => start.isPrefixOf f.long.toList

/-- The value in a word of short names: the letter of the name may be repeated before it. --/
def shortValue (cs : List Char) : Option (List Char) :=
  let value := match cs with
    | '=' :: value => value
    | value => value
  if !cs.isEmpty && (value.isEmpty || value.any (· ≠ 'h')) then some (value.dropWhile (· = 'h')) else none

/-- What a word that starts with a hyphen is if it names no option. --/
def unnamed (word : String) : Word :=
  if isBelowZero word.toList || word.toList.contains ' ' then .operand word else .stray word

/-- What a word is where there are the given options. --/
def read (flags : List Flag) (word : String) : Except Ambiguity Word :=
  match word.toList with
  | '-' :: '-' :: cs =>
    let (name, value) := splitValue ('-' :: '-' :: cs)
    match candidates flags name with
    | [] => .ok (unnamed word)
    | [f] => .ok (.flag f (value.map String.ofList))
    | fs => .error ⟨word, fs⟩
  | '-' :: 'h' :: cs => .ok (.flag .help ((shortValue cs).map String.ofList))
  | ['-'] => .ok (.operand word)
  | '-' :: _ => .ok (unnamed word)
  | _ => .ok (.operand word)

/-- What each word is. --/
def readAll (flags : List Flag) : List String → Except Ambiguity (List Word)
  | [] => .ok []
  | word :: rest =>
    if word = "--" then .ok (.separator :: rest.map .operand)
    else do return (← read flags word) :: (← readAll flags rest)

end Retag.CommandLine

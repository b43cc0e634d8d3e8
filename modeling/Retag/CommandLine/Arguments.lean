import Retag.CommandLine.Usage
import Retag.Document.Value

/-! The arguments of a command line. The first operand is the command, and all words behind it are the command's.
    Of an option that stands several times the last value counts. Words that mean nothing are complained about
    together, once everything else is in order. -/

namespace Retag.CommandLine

/-- The value of an option. --/
inductive Operand where
  /-- The option does not stand on the command line. --/
  | absent
  | text (s : String)
  /-- The value was to be two hyphens in the word of the option, which are taken as a separator and not as a
      value. --/
  | nothing
  deriving DecidableEq, Repr

namespace Operand

/-- The operand of a value in the word of its option. --/
def ofValue (s : String) : Operand :=
  if s = "--" then .nothing else .text s

/-- The operand as a value: null where it is absent, and an empty list for nothing. --/
def value : Operand → Value
  | .absent => .null
  | .text s => .str s
  | .nothing => .list []

/-- The text that is not empty. --/
def text? : Operand → Option String
  | .text s => if s = "" then none else some s
  | _ => none

end Operand

/-- The arguments of a command; a command without an option leaves it out. --/
structure Arguments where
  command : Command
  version : Operand := .absent
  file : Operand := .absent
  image : Operand := .absent
  dryRun : Bool := false
  deriving DecidableEq, Repr

namespace Arguments

def set (a : Arguments) (f : Flag) (v : Operand) : Arguments :=
  match f with
  | .version => { a with version := v }
  | .file => { a with file := v }
  | .image => { a with image := v }
  | .help | .dryRun => a

end Arguments

/-- Takes up the words of a command, one option after the other, and keeps the words that mean nothing. --/
def collect (a : Arguments) (strays : List String) : List Word → Except Stop (Arguments × List String)
  | [] => .ok (a, strays)
  | .flag f (some v) :: rest =>
    if f.takesValue then collect (a.set f (.ofValue v)) strays rest
    else .error (.complaint (.command a.command) (.valueIgnored f v))
  | .flag .help none :: _ => .error (.help (.command a.command))
  | .flag .dryRun none :: rest => collect { a with dryRun := true } strays rest
  | .flag f none :: .operand v :: rest => collect (a.set f (.text v)) strays rest
  | .flag f none :: _ => .error (.complaint (.command a.command) (.valueMissing f))
  | .operand w :: rest | .stray w :: rest => collect a (strays ++ [w]) rest
  | .separator :: rest => collect a (strays ++ ["--"]) rest

/-- The arguments in the words of a command, and the words that mean nothing to it. --/
def ofCommand (c : Command) (words : List String) : Except Stop (Arguments × List String) := do
  let complain (why : Complaint) : Stop := .complaint (.command c) why
  let ws ← (readAll c.flags words).mapError fun e => complain (.ambiguous e)
  let (a, strays) ← collect { command := c } [] ws
  if c = .patch && a.version = .absent then .error (complain .versionMissing)
  return (a, strays)

/-- The arguments that a first operand and the words behind it name; `strays` stand before it. --/
def ofOperand (strays : List String) (word : String) (words : List String) : Except Stop Arguments := do
  match Command.ofWord? word with
  | none => .error (.complaint .program (.noCommand word))
  | some c =>
    let (a, more) ← ofCommand c words
    if strays.isEmpty && more.isEmpty then return a
    else .error (.complaint .program (.unrecognized (strays ++ more)))

/-- The arguments of a command line, behind words that mean nothing. --/
def argumentsFrom (strays : List String) : List String → Except Stop Arguments
  | [] => .error (.complaint .program .commandMissing)
  | word :: rest =>
    if word = "--" then
      if rest.isEmpty then .error (.complaint .program .commandMissing) else ofOperand strays word rest
    else match read [.help] word with
      | .ok (.flag _ none) => .error (.help .program)
      | .ok (.flag f (some v)) => .error (.complaint .program (.valueIgnored f v))
      | .ok (.stray w) => argumentsFrom (strays ++ [w]) rest
      | _ => ofOperand strays word rest

def arguments (words : List String) : Except Stop Arguments :=
  argumentsFrom [] words

end Retag.CommandLine

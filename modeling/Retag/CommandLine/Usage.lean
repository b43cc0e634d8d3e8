import Retag.CommandLine.Word
import Retag.Text.Quoted

/-! What the command line says of itself: the usage of the program and of its commands, the complaints about
    command lines that ask for nothing, and how each of these ends the program. -/

namespace Retag.CommandLine

inductive Command where
  | patch
  | query
  deriving DecidableEq, Repr

/-- Who speaks: the program, or one of its commands. --/
inductive Speaker where
  | program
  | command (c : Command)
  deriving DecidableEq, Repr

/-- What is wrong with a command line. --/
inductive Complaint where
  | commandMissing
  | noCommand (word : String)
  | versionMissing
  | valueMissing (flag : Flag)
  /-- A value stands with an option that takes none. --/
  | valueIgnored (flag : Flag) (value : String)
  | ambiguous (why : Ambiguity)
  | unrecognized (words : List String)
  deriving DecidableEq, Repr

/-- How a command line ends without asking for anything: with the usage in full, or with a complaint. --/
inductive Stop where
  | help (speaker : Speaker)
  | complaint (speaker : Speaker) (why : Complaint)
  deriving DecidableEq, Repr

namespace Command

def word : Command → String
  | .patch => "pre-commit"
  | .query => "show"

def ofWord? (w : String) : Option Command :=
  if w = "pre-commit" then some .patch else if w = "show" then some .query else none

def flags : Command → List Flag
  | .patch => [.help, .version, .file, .image, .dryRun]
  | .query => [.help, .file, .image]

@[simp] theorem ofWord?_word (c : Command) : ofWord? c.word = some c := by
  cases c <;> rfl

end Command

namespace Speaker

/-- The name under which a speaker complains. --/
def name : Speaker → String
  | .program => "release-hook"
  | .command c => "release-hook " ++ c.word

/-- The usage in short. --/
def usage : Speaker → List String
  | .program => ["usage: release-hook [-h] \x7bpre-commit,show\x7d ..."]
  | .command .patch =>
    ["usage: release-hook pre-commit [-h] --version VERSION [--file FILE]",
     "                               [--image IMAGE] [--dry-run]"]
  | .command .query => ["usage: release-hook show [-h] [--file FILE] [--image IMAGE]"]

/-- What the usage in full says beyond the usage in short. --/
def details : Speaker → List String
  | .program =>
    ["",
     "Patch the image tag of a Kustomize overlay before a release commit",
     "",
     "positional arguments:",
     "  \x7bpre-commit,show\x7d",
     "    pre-commit       Write the release version into newTag",
     "    show             Print the current newTag",
     "",
     "options:",
     "  -h, --help         show this help message and exit"]
  | .command .patch =>
    ["",
     "options:",
     "  -h, --help         show this help message and exit",
     "  --version VERSION  Release version (image tag)",
     "  --file FILE        Path to kustomization.yaml",
     "  --image IMAGE      Image name to update (default: first entry)",
     "  --dry-run          Do not write the file"]
  | .command .query =>
    ["",
     "options:",
     "  -h, --help     show this help message and exit",
     "  --file FILE    Path to kustomization.yaml",
     "  --image IMAGE  Image name to read (default: first entry)"]

end Speaker

namespace Complaint

def message : Complaint → String
  | .commandMissing => "the following arguments are required: command"
  | .noCommand word =>
    "argument command: invalid choice: " ++ Text.quoted word ++ " (choose from 'pre-commit', 'show')"
  | .versionMissing => "the following arguments are required: --version"
  | .valueMissing f => "argument " ++ f.label ++ ": expected one argument"
  | .valueIgnored f value => "argument " ++ f.label ++ ": ignored explicit argument " ++ Text.quoted value
  | .ambiguous why =>
    "ambiguous option: " ++ why.word ++ " could match " ++ ", ".intercalate (why.flags.map Flag.long)
  | .unrecognized words => "unrecognized arguments: " ++ " ".intercalate words

end Complaint

def textOfLines (ls : List String) : String :=
  String.join (ls.map (· ++ "\n"))

namespace Stop

def code : Stop → Nat
  | .help _ => 0
  | .complaint .. => 2

def output : Stop → String
  | .help s => textOfLines (s.usage ++ s.details)
  | .complaint .. => ""

def error : Stop → String
  | .help _ => ""
  | .complaint s why => textOfLines (s.usage ++ [s.name ++ ": error: " ++ why.message])

end Stop

end Retag.CommandLine

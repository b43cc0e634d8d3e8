import Retag.CommandLine.Arguments
import Retag.Manifest.Patch
import Retag.Settings

/-! Running a command line: what is printed, the exit code, and what becomes of the files. Options that are not
    given, or are empty, leave the choice to the settings. -/

namespace Retag.CommandLine

open Files Journal Manifest

variable [Host]

inductive Ending where
  | returned (code : Nat)
  /-- The command line asks for nothing. --/
  | exited (code : Nat)
  | broken (why : Breakdown)
  | misconfigured (problems : Settings.Problems)
  deriving DecidableEq, Repr

/-- What a run leaves behind: its ending, what it prints as output and as an error, the files, and the records it
    kept. --/
structure Report where
  ending : Ending
  output : Text.Wobbly := ""
  error : String := ""
  tree : FileTree
  records : List Record := []

namespace Report

/-- The report on a command line that asks for nothing. --/
def ofStop (t : FileTree) (s : Stop) : Report :=
  { ending := .exited s.code, output := s.output, error := s.error, tree := t }

/-- The report on an outcome; a success prints a line, unless the output does not take it. --/
def ofOutcome {α : Type} (line : α → Text.Wobbly) (o : Outcome α) : Report :=
  match o.result with
  | .ok a =>
    if Host.takes (line a) then
      { ending := .returned 0, output := line a ++ ("\n" : Text.Wobbly), tree := o.tree, records := o.records }
    else { ending := .broken .unencodable, tree := o.tree, records := o.records }
  | .error (.refused why) =>
    { ending := .returned 1, error := "error: " ++ why.message ++ "\n", tree := o.tree, records := o.records }
  | .error (.broken why) => { ending := .broken why, tree := o.tree, records := o.records }

end Report

/-- The text of the path that is meant. --/
def pathText (settings : Settings) (a : Arguments) : String :=
  a.file.text?.getD settings.manifestPath

/-- The name of the image that is meant; none for the first entry. --/
def selector (settings : Settings) (a : Arguments) : Option String :=
  a.image.text?.or settings.imageName

def request (settings : Settings) (a : Arguments) : Request :=
  { version := a.version.value, path := pathText settings a, selector := selector settings a, dryRun := a.dryRun }

def versionText (a : Arguments) : String :=
  match a.version with
  | .text s => s
  | _ => ""

def patchedLine (settings : Settings) (a : Arguments) (p : Patched) : Text.Wobbly :=
  if p.changed then
    ("Updated " ++ pathText settings a ++ ": " : String) ++ p.previous.getD "None" ++
      (" -> " ++ versionText a ++ if a.dryRun then " (dry run)" else "" : String)
  else (pathText settings a ++ " already at " ++ versionText a : String)

def tagLine (tag : Option Text.Wobbly) : Text.Wobbly :=
  tag.getD ""

/-- Does what arguments ask for. --/
def execute (fault : Option Fault) (t : FileTree) (settings : Settings) (a : Arguments) : Report :=
  match a.command with
  | .patch => .ofOutcome (patchedLine settings a) (patch fault t (request settings a))
  | .query => .ofOutcome tagLine ⟨tagOf fault t (pathText settings a) (selector settings a), t, []⟩

def run (fault : Option Fault) (t : FileTree) (settings : Settings) (words : List String) : Report :=
  match arguments words with
  | .error stop => .ofStop t stop
  | .ok a => execute fault t settings a

end Retag.CommandLine

import Retag.CommandLine.Run
import Retag.Hook
import Retag.Journal.Setup

/-! Sessions. A session holds the files, the environment, the settings once they were read, and the journal. The
    settings are read from the environment when they are first asked for, and kept until they are dropped; settings
    that are not acceptable are not kept. -/

namespace Retag

open CommandLine Files Journal Manifest

variable [Host]

/-- What operations share. --/
structure Session where
  tree : FileTree
  environment : Settings.Environment := []
  kept : Option Settings := none
  journal : Journal.State := {}
  deriving DecidableEq, Repr

/-- Why an operation gives nothing: its settings are not acceptable, or it failed. --/
inductive Trouble where
  | settings (problems : Settings.Problems)
  | failure (why : Failure)
  deriving DecidableEq, Repr

namespace Session

/-- The settings, and the session that keeps them. --/
def settings (s : Session) : Except Settings.Problems Settings × Session :=
  match s.kept with
  | some v => (.ok v, s)
  | none => match Settings.read [] s.environment with
    | .ok v => (.ok v, { s with kept := some v })
    | .error ps => (.error ps, s)

/-- Drops the settings that are kept. --/
def dropSettings (s : Session) : Session :=
  { s with kept := none }

/-- Gives a variable a value, where it stands or else last, or takes the variable away. --/
def setVariable (s : Session) (name : String) (value : Option String) : Session :=
  let env := s.environment
  { s with environment := match value with
      | none => env.filter fun e => e.1 ≠ name
      | some v =>
        if (env.lookup name).isSome then env.map fun e => if e.1 = name then (name, v) else e
        else env ++ [(name, v)] }

/-- What an operation on a session gives: its result, the session after it, and the records it kept. --/
structure Done (α : Type) where
  result : Except Trouble α
  session : Session
  records : List Record := []

def done {α : Type} (s : Session) (o : Outcome α) : Done α :=
  { result := o.result.mapError .failure, session := { s with tree := o.tree }, records := o.records }

/-- Runs the hook with the settings of the session; a release without a version does not ask for them. --/
def preCommit (s : Session) (fault : Option Fault) (properties : Hook.Properties) : Done Patched :=
  match Hook.version properties with
  | .error e => { result := .error (.failure (.refused (.version e))), session := s }
  | .ok v => match s.settings with
    | (.error ps, s) => { result := .error (.settings ps), session := s }
    | (.ok settings, s) => s.done (Hook.patch fault s.tree settings v)

/-- What a run of the program shows, and the session after it. The lines of the journal stand before the text that
    is printed as an error. --/
structure Run where
  ending : Ending
  output : Text.Wobbly := ""
  lines : List Line := []
  error : String := ""
  session : Session

/-- The run for the report on a command line. A record that cannot be made breaks the run down, and no further ones are
    made. --/
def reported (s : Session) (stream : Nat) (r : Report) : Run :=
  -- All that is done to the files is done before the first record is made.
  let session := { s with tree := r.tree }
  let lines := linesOn s.journal stream (r.records.takeWhile fun record => (trouble? s.journal record).isNone)
  match r.records.findSome? (trouble? s.journal) with
  | some why => { ending := .broken why, lines, session }
  | none => { ending := r.ending, output := r.output, lines, error := r.error, session }

/-- Runs the program: asks for the settings, sets the journal up, with its lines on a stream, and runs the command
    line. --/
def launch (s : Session) (fault : Option Fault) (stream : Nat) (words : List String) : Run :=
  match s.settings with
  | (.error ps, s) => { ending := .misconfigured ps, session := s }
  | (.ok settings, s) => match (setUp settings stream).run.run s.journal with
    | (.error why, j) => { ending := .broken why, session := { s with journal := j } }
    | (.ok (), j) => { s with journal := j }.reported stream (CommandLine.run fault s.tree settings words)

end Session

end Retag

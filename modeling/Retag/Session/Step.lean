import Retag.Session

/-! Steps of a session. Between the operations the environment and the files may change, and the settings may be
    dropped. An operation has its settings from the session, or is given settings of its own. -/

namespace Retag.Session

open CommandLine Files Journal Manifest

variable [Host]

/-- Where an operation has its settings from. --/
inductive Source where
  /-- The settings of the session. --/
  | session
  /-- Settings of its own, for keywords in the environment. --/
  | keywords (given : Settings.Keywords)

/-- What is done under settings. --/
inductive Operation where
  | patch (request : Request)
  | query (path : String) (selector : Option String)
  | preCommit (properties : Hook.Properties)
  | run (words : List String)

inductive Step where
  /-- Variables are given values, or taken away. --/
  | setVariables (changes : List (String × Option String))
  /-- The files are changed from outside. --/
  | setTree (tree : FileTree)
  | dropSettings
  /-- The settings of the session are asked for, and nothing is done under them. --/
  | askSettings
  | operate (source : Source) (fault : Option Fault) (operation : Operation)
  /-- The program is run, with the lines of its journal on a stream. --/
  | launch (fault : Option Fault) (stream : Nat) (words : List String)

inductive Answer where
  | nothing
  | settings (settings : Settings)
  | patched (patched : Patched)
  | tag (tag : Option Text.Wobbly)
  | printed (ending : Ending) (output : Text.Wobbly) (lines : List Line) (error : String)

/-- What an operation gives, with another result of a success. --/
def Done.map {α β : Type} (f : α → β) (d : Done α) : Done β :=
  { d with result := d.result.map f }

/-- The settings of a source, and the session after it was asked for them. --/
def settingsOf (s : Session) : Source → Except Settings.Problems Settings × Session
  | .session => s.settings
  | .keywords given => (Settings.read given s.environment, s)

/-- Does an operation under settings. --/
def operate (s : Session) (settings : Settings) (fault : Option Fault) : Operation → Done Answer
  | .patch request => (s.done (Manifest.patch fault s.tree request)).map .patched
  | .query path selector => (s.done ⟨tagOf fault s.tree path selector, s.tree, []⟩).map .tag
  | .preCommit properties => (s.done (Hook.preCommit fault s.tree settings properties)).map .patched
  | .run words =>
    let r := CommandLine.run fault s.tree settings words
    { result := .ok (.printed r.ending r.output [] r.error), session := { s with tree := r.tree },
      records := r.records }

def step (s : Session) : Step → Done Answer
  | .setVariables changes =>
    { result := .ok .nothing, session := changes.foldl (fun s e => s.setVariable e.1 e.2) s }
  | .setTree tree => { result := .ok .nothing, session := { s with tree } }
  | .dropSettings => { result := .ok .nothing, session := s.dropSettings }
  | .askSettings => match s.settings with
    | (.ok settings, s) => { result := .ok (.settings settings), session := s }
    | (.error ps, s) => { result := .error (.settings ps), session := s }
  -- Only the hook looks at what it is given before it asks for the settings of the session.
  | .operate .session fault (.preCommit properties) => (s.preCommit fault properties).map .patched
  | .operate source fault operation => match s.settingsOf source with
    | (.ok settings, s) => s.operate settings fault operation
    | (.error ps, s) => { result := .error (.settings ps), session := s }
  | .launch fault stream words =>
    let r := s.launch fault stream words
    match r.ending with
    | .misconfigured ps => { result := .error (.settings ps), session := r.session }
    | ending => { result := .ok (.printed ending r.output r.lines r.error), session := r.session }

/-- The session after a row of steps. --/
def after (s : Session) (steps : List Step) : Session :=
  steps.foldl (fun s step => (s.step step).session) s

end Retag.Session

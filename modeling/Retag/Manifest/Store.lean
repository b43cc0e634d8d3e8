import Retag.Files.Call
import Retag.Journal.Record
import Retag.Manifest.Content

/-! Manifests in files. A manifest is replaced as a whole: the new text goes into a temporary file beside the old
    one, takes over its mode, and is then put in its place; links on the way stay as they are. -/

namespace Retag.Manifest

open Files Journal

variable [Host]

/-- What an action leaves behind: its result, the file tree, and the records it kept. --/
structure Outcome (α : Type) where
  result : Except Failure α
  tree : FileTree
  records : List Record := []

namespace Outcome

/-- Goes on with another action after a success. --/
def andThen {α β : Type} (o : Outcome α) (f : α → FileTree → Outcome β) : Outcome β :=
  match o.result with
  | .error e => ⟨.error e, o.tree, o.records⟩
  | .ok a =>
    let next := f a o.tree
    { next with records := o.records ++ next.records }

/-- Adds a record if the action succeeded. --/
def thenRecord {α : Type} (o : Outcome α) (record : α → Record) : Outcome α :=
  match o.result with
  | .error _ => o
  | .ok a => { o with records := o.records ++ [record a] }

end Outcome

def refused (path : Path) (e : FileError) : Failure :=
  .refused (.fileError path.text e)

def contentOf (fault : Option Fault) (t : FileTree) (path : Path) : Except Failure (List UInt8) :=
  match attempt fault .isFile (t.isFile path) with
  | .error e => .error (refused path e)
  | .ok false => .error (.refused (.notFound path.text))
  | .ok true => (attempt fault .openFile (t.content path)).mapError (refused path)

def load (fault : Option Fault) (t : FileTree) (path : Path) (charset : Charset := .standard) :
    Except Failure Document := do
  decode path.text charset (← contentOf fault t path)

/-- Reads the manifest of a path in the encoding of a name. --/
def loadAs (encoding : String) (fault : Option Fault) (t : FileTree) (path : Path) : Except Failure Document := do
  let bytes ← contentOf fault t path
  if encoding.contains '\x00' then .error (.broken .nullInName)
  else match Text.Encoding.ofName? encoding with
    | some e => decode path.text ⟨encoding, e⟩ bytes
    | none => .error (.broken .noEncoding)

/-- The location of the file that is replaced for a path. --/
def target (fault : Option Fault) (t : FileTree) (path : Path) : Except Failure Location := do
  let l ← (attempt fault .resolve (.ok (t.resolve path))).mapError (refused path)
  -- Neither a null character nor endless links are file errors.
  if path.hasNull then .error (.broken .nullInName)
  if t.isEndless l then .error (.broken .endlessPath)
  if (attempt fault .access (.ok ())).isOk && (t.follow l).isOk then return l
  else .error (refused path .denied)

/-- Fills the temporary file and puts it in the place of the target. --/
def replaceBy (fault : Option Fault) (t : FileTree) (temporary target : Location) (content : List UInt8) :
    Except FileError FileTree := do
  let t := t.write temporary content
  attempt fault .copyMode (.ok ())
  let t := t.copyMode target temporary
  attempt fault .replace (t.replace temporary target)

/-- Writes a document to the manifest of a path: the location of the file that was replaced. After a file error the
    temporary file is gone. --/
def save (fault : Option Fault) (t : FileTree) (path : Path) (d : Document) : Outcome Location :=
  match target fault t path with
  | .error e => ⟨.error e, t, []⟩
  | .ok l => match attempt fault .makeTemporary (t.makeTemporary l) with
    | .error e => ⟨.error (refused path e), t, []⟩
    | .ok (temporary, t) =>
      match attempt fault .dump (.ok ()) with
      | .error e => ⟨.error (refused path e), t.erase temporary, []⟩
      | .ok () => match encode d with
        -- Only a file error takes the temporary file away.
        | .error e => ⟨.error (.broken e), t, []⟩
        | .ok content => match replaceBy fault t temporary l content with
          | .error e => ⟨.error (refused path e), t.erase temporary, []⟩
          | .ok t => ⟨.ok l, t, []⟩

def written (path : Path) (l : Location) : Record :=
  { channel := Channel.store.name, level := .debug, message := "Manifest written",
    extra := [("path", .text path.text), ("target", .text ("/" ++ "/".intercalate l))] }

/-- Writes a document, and keeps a record of it. --/
def saveAndRecord (fault : Option Fault) (t : FileTree) (path : Path) (d : Document) : Outcome Location :=
  (save fault t path d).thenRecord (written path)

end Retag.Manifest

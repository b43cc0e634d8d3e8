import Retag.Manifest.Entry
import Retag.Manifest.Store
import Retag.Tag

/-! Patching the tag of a manifest, and asking for it. The version is checked before anything is read; the file is
    written only if the tag changes. -/

namespace Retag.Manifest

open Files Journal

variable [Host]

structure Request where
  version : Value
  path : String
  selector : Option String := none
  dryRun : Bool := false

/-- What was patched: the path, the tag before, and whether it changed. --/
structure Patched where
  path : String
  previous : Option Text.Wobbly
  changed : Bool
  deriving DecidableEq, Repr

def malformedAt (path : Path) (e : Malformation) : Failure :=
  .refused (.malformed path.text e)

/-- The text of a tag that was read; none for null. The stack is asked for the text of a container only. --/
def tagText? (v : Value) : Except Failure (Option Text.Wobbly) :=
  match v with
  | .scalar .null => .ok none
  | v =>
    if !v.isScalar && !Host.shows v then .error (.broken .stackFull)
    else match v.text? with
      | some s => .ok (some s)
      | none => .error (.broken .longNumber)

/-- The value of an entry's tag, null if there is none. --/
def tagValue (d : Document) (entry : Ref) : Value :=
  match tagCell? d.cells entry with
  | some r => d.cells.value r
  | none => .null

def isText (v : Value) (s : String) : Bool :=
  match v with
  | .scalar (.str t) => t == s
  | _ => false

/-- What a request finds: the document, the entry, and the tag as value and as text. --/
structure Found where
  document : Document
  entry : Ref
  tag : Value
  text : Option Text.Wobbly

/-- Finds the addressed tag of the manifest of a path. --/
def find (fault : Option Fault) (t : FileTree) (path : Path) (selector : Option String) : Except Failure Found := do
  let d ← load fault t path
  let slot ← (locate d selector).mapError (malformedAt path)
  let tag := tagValue d slot.cell
  return ⟨d, slot.cell, tag, ← tagText? tag⟩

/-- The record of a tag that is as wanted already. --/
def currentRecord (path : Path) (tag : Tag) : Record :=
  { channel := Channel.patch.name, level := .debug, message := "Image tag already current",
    extra := [("path", .text path.text), ("tag", .text tag.text)] }

/-- The record of a tag that changes. --/
def changeRecord (message : String) (path : Path) (previous : Option Text.Wobbly) (tag : Tag) : Record :=
  { channel := Channel.patch.name, level := .info, message,
    extra := [("path", .text path.text), ("from", .ofText? previous), ("to", .text tag.text)] }

/-- Writes a tag into the entry that was found. --/
def apply (fault : Option Fault) (t : FileTree) (path : Path) (found : Found) (tag : Tag) (dryRun : Bool) :
    Outcome Patched :=
  let done (changed : Bool) : Patched := ⟨path.text, found.text, changed⟩
  if isText found.tag tag.text then ⟨.ok (done false), t, [currentRecord path tag]⟩
  else if dryRun then
    ⟨.ok (done true), t, [changeRecord "Dry run: image tag not written" path found.text tag]⟩
  else
    -- The document is changed where it stands: whatever shares the entry shares the tag.
    let d : Document := { found.document with cells := writeTag found.document.cells found.entry tag.text }
    (saveAndRecord fault t path d).andThen fun _ t =>
      ⟨.ok (done true), t, [changeRecord "Image tag patched" path found.text tag]⟩

/-- Patches the tag of a manifest. --/
def patch (fault : Option Fault) (t : FileTree) (request : Request) : Outcome Patched :=
  match Tag.ofValue request.version with
  | .error e => ⟨.error (.refused (.version e)), t, []⟩
  | .ok tag =>
    let path := Path.ofText request.path
    match find fault t path request.selector with
    | .error e => ⟨.error e, t, []⟩
    | .ok found => apply fault t path found tag request.dryRun

def tagOf (fault : Option Fault) (t : FileTree) (path : String) (selector : Option String) :
    Except Failure (Option Text.Wobbly) := do
  return (← find fault t (.ofText path) selector).text

end Retag.Manifest

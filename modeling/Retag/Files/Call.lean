import Retag.Files.Walk
import Retag.Text.Encoding

/-! The calls by which manifests are read and replaced. Each of them can be made to fail by a fault from outside,
    such as a full disk; without one it fails only for what stands in the tree. -/

namespace Retag.Files

inductive Call where
  | isFile
  | openFile
  /-- Resolves the links of a path. --/
  | resolve
  /-- Asks whether a file may be written. --/
  | access
  | makeTemporary
  /-- Writes a document into a file. --/
  | dump
  /-- Copies the mode of one file to another. --/
  | copyMode
  /-- Puts one file in the place of another. --/
  | replace
  deriving DecidableEq, Repr

/-- A fault: the call that fails, and its error. A fault of `access` is that the answer is no. --/
structure Fault where
  call : Call
  error : FileError
  deriving DecidableEq, Repr

/-- Makes a call, unless a fault prevents it. --/
def attempt {α : Type} (fault : Option Fault) (call : Call) (result : Except FileError α) : Except FileError α :=
  match fault with
  | some f => if f.call = call then .error f.error else result
  | none => result

/-- Without a fault a call has its own result. --/
@[simp] theorem attempt_none {α : Type} (call : Call) (result : Except FileError α) :
    attempt none call result = result := rfl

namespace FileTree

/-- Whether a path leads to a file. Paths that lead nowhere do not; one whose names are too long is an error. --/
def isFile (t : FileTree) (p : Path) : Except FileError Bool :=
  if p.hasNull then .ok false
  else match t.find p with
    | .ok l => match t.get? l with
      | some (.file ..) => .ok true
      | _ => .ok false
    | .error e => if e = .nameTooLong then .error e else .ok false

def content (t : FileTree) (p : Path) : Except FileError (List UInt8) := do
  match t.get? (← t.find p) with
  | some (.file content _) => return content
  | some .directory => .error .isDirectory
  | _ => .error .missing

/-- The mode of a node; directories have the usual one. --/
def modeOf : Node → Nat
  | .file _ mode => mode
  | _ => 0o755

def temporaryMode : Nat := 0o600

/-- The name of a temporary file beside a file, with a number of eight digits in it. --/
def temporaryName (name : String) (number : Nat) : String :=
  let ds := Nat.toDigits 10 number
  String.ofList ('.' :: name.toList ++ '.' :: List.replicate (8 - ds.length) '0' ++ ds ++ ".tmp".toList)

/-- The first location of a temporary file, from a number on, at which nothing stands. --/
def freeLocation (t : FileTree) (folder : Location) (name : String) : (tries number : Nat) → Location
  | 0, number => folder ++ [temporaryName name number]
  | tries + 1, number =>
    let l := folder ++ [temporaryName name number]
    if (t.get? l).isNone then l else freeLocation t folder name tries (number + 1)

/-- Makes an empty temporary file beside a location: its location, and the tree with it. --/
def makeTemporary (t : FileTree) (target : Location) : Except FileError (Location × FileTree) :=
  let name := target.getLast?.getD ""
  let l := t.freeLocation target.dropLast name (t.nodes.length + 1) 0
  if maxName < (l.getLast?.getD "").utf8ByteSize || maxPath < pathBytes l then .error .nameTooLong
  else .ok (l, t.put l (.file [] temporaryMode))

/-- Gives the file at a location a content. --/
def write (t : FileTree) (l : Location) (content : List UInt8) : FileTree :=
  match t.get? l with
  | some (.file _ mode) => t.put l (.file content mode)
  | _ => t

/-- Gives the file at a location the mode of the node that another location leads to. --/
def copyMode (t : FileTree) (source l : Location) : FileTree :=
  match (t.follow source).toOption.bind t.get?, t.get? l with
  | some n, some (.file content _) => t.put l (.file content (modeOf n))
  | _, _ => t

/-- Puts the file at a location in the place of the one, or of the link, at another. --/
def replace (t : FileTree) (l target : Location) : Except FileError FileTree :=
  if target.isEmpty then .error .busy
  else match t.get? l, t.get? target with
  | some _, some .directory => .error .isDirectory
  | some n, some _ => .ok ((t.erase l).put target n)
  | _, _ => .error .missing

end FileTree

end Retag.Files

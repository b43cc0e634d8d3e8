import Retag.Session
import Std.Time.Format

/-! The program. The file that a command line is about is read first; the session decides what is printed and what
    the file holds afterwards; and a file that changes is written beside the old one and put in its place. -/

namespace Retag.Program

open Files

attribute [local instance] Host.ample

/-- The name of a field's variable as it is usually written. --/
def variableName (f : Settings.Field) : String :=
  String.ofList (f.variableName.toList.map Char.toUpper)

/-- The environment, as far as settings come from it. --/
def environment : IO Settings.Environment := do
  let mut env := []
  for f in Settings.fields do
    if let some value ← IO.getEnv (variableName f) then
      env := env ++ [(variableName f, value)]
  return env

/-- The path that a command line is about, if it is about one. --/
def addressed? (s : Session) (words : List String) : Option Path :=
  match s.settings.1, CommandLine.arguments words with
  | .ok settings, .ok a => some (.ofText (CommandLine.pathText settings a))
  | _, _ => none

def textOf (l : Location) : String :=
  "/" ++ "/".intercalate l

/-- A tree without files, but with directories where a path goes along, and above a location. --/
def bareTree (here : Location) (p : Path) (l : Location) : FileTree :=
  let onTheWay := (List.range p.names.length).map fun n => byNames (FileTree.startOf here p.start) (p.names.take n)
  let above := (List.range l.length).map l.take
  (onTheWay ++ above).foldl (fun t d => if (t.get? d).isSome then t else t.put d .directory) { here }

/-- The tree in which a path leads to a file at a location, by a link if it has another name. --/
def treeWith (here : Location) (p : Path) (l : Location) (content : List UInt8) : FileTree :=
  let named := byNames (FileTree.startOf here p.start) p.names
  let t := (bareTree here p l).put l (.file content 0o644)
  if named = l then t else t.put named (.link (textOf l))

/-- What is known of the files that a path is about: the tree, and the location of the file if there is one. --/
structure Found where
  tree : FileTree
  file : Option Location := none

/-- Looks a path up. --/
def find (here : Location) (p : Path) : IO Found := do
  try
    let bytes ← IO.FS.readBinFile p.text
    let l := (Path.ofText (← IO.FS.realPath p.text).toString).names
    return { tree := treeWith here p l bytes.toList, file := some l }
  catch _ => return { tree := bareTree here p [] }

/-- Puts a new content in the place of a file. --/
def replace (l : Location) (content : List UInt8) : IO Unit := do
  let temporary := textOf (l.dropLast ++ [FileTree.temporaryName (l.getLast?.getD "") 0])
  IO.FS.writeBinFile temporary ⟨content.toArray⟩
  IO.FS.rename temporary (textOf l)

/-- Brings a file to the content that it has in a tree. --/
def update (before after : FileTree) (l : Location) : IO Unit := do
  match after.get? l with
  | some (.file content _) => if before.get? l ≠ after.get? l then replace l content
  | _ => return ()

/-- The exit code of an ending, and what is still to be printed as an error. --/
def conclusion : CommandLine.Ending → UInt32 × String
  | .returned code | .exited code => (UInt32.ofNat code, "")
  | .broken why => (1, "broken: " ++ reprStr why ++ "\n")
  | .misconfigured ps => (1, String.join (ps.map fun (f, p) => f.keyword ++ ": " ++ p.word ++ "\n"))

def run (words : List String) : IO UInt32 := do
  let out ← IO.getStdout
  let err ← IO.getStderr
  let here := (Path.ofText (← IO.currentDir).toString).names
  let s : Session := { tree := { here }, environment := ← environment }
  let found ← match addressed? s words with
    | some p => find here p
    | none => pure { tree := s.tree }
  let r := { s with tree := found.tree }.launch none 0 words
  try
    if let some l := found.file then update found.tree r.session.tree l
  catch e =>
    let path := (addressed? s words).map Path.text
    err.putStr ("error: " ++ (Refusal.fileError (path.getD "") (.bare (toString e))).message ++ "\n")
    return 1
  let time := (← Std.Time.PlainDateTime.now).format "uuuu-MM-dd HH:mm:ss,SSS"
  for line in r.lines do
    err.putStr (line.write time ++ "\n")
  let (code, more) := conclusion r.ending
  err.putStr (r.error ++ more)
  if let .whole s := r.output then out.putStr s
  return code

end Retag.Program

def main (words : List String) : IO UInt32 :=
  Retag.Program.run words

/-! File trees. A tree says what stands at each location: a file with its content and mode, a directory, or a link
    to another path. The current directory and the directories above it are always there. -/

namespace Retag.Files

inductive Node where
  | file (content : List UInt8) (mode : Nat)
  | directory
  | link (target : String)
  deriving DecidableEq, Repr

/-- The names from the root directory down to a node. --/
abbrev Location := List String

/-- A tree: its nodes by location, each location once, and the current directory. --/
structure FileTree where
  nodes : List (Location × Node) := []
  here : Location := []
  deriving DecidableEq, Repr

namespace FileTree

def get? (t : FileTree) (l : Location) : Option Node :=
  if l.isPrefixOf t.here then some .directory else t.nodes.lookup l

/-- Replaces a node where it stands, or adds it last. --/
def put (t : FileTree) (l : Location) (n : Node) : FileTree :=
  if (t.nodes.lookup l).isSome then { t with nodes := t.nodes.map fun e => if e.1 = l then (l, n) else e }
  else { t with nodes := t.nodes ++ [(l, n)] }

def erase (t : FileTree) (l : Location) : FileTree :=
  { t with nodes := t.nodes.filter fun e => e.1 ≠ l }

def linkCount (t : FileTree) : Nat :=
  t.nodes.countP fun e => match e.2 with
    | .link _ => true
    | _ => false

end FileTree

end Retag.Files

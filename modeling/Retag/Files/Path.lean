/-! Paths. The text of a path is split at slashes; empty names and single points say nothing and are dropped, while
    double points stay, since what they mean depends on links. Exactly two slashes in front are kept apart from
    any other number. -/

namespace Retag.Files

/-- Where a path starts: at the current directory, or at the root, named in one of two ways. --/
inductive Start where
  | here
  | root
  | doubleRoot
  deriving DecidableEq, Repr

/-- A path: its start and its names. --/
structure Path where
  start : Start
  names : List String
  deriving DecidableEq, Repr

/-- The names of a text between slashes, empty ones included. --/
def splitNames (cs : List Char) : List (List Char) :=
  match cs with
  | [] => [[]]
  | c :: rest =>
    if c = '/' then [] :: splitNames rest
    else match splitNames rest with
      | name :: names => (c :: name) :: names
      | [] => [[c]]

namespace Path

/-- The start of the path that a text writes. --/
def startOf : List Char → Start
  | '/' :: '/' :: '/' :: _ => .root
  | '/' :: '/' :: _ => .doubleRoot
  | '/' :: _ => .root
  | _ => .here

def ofText (text : String) : Path :=
  let names := (splitNames text.toList).map String.ofList
  ⟨startOf text.toList, names.filter fun n => n ≠ "" && n ≠ "."⟩

def text (p : Path) : String :=
  let body := "/".intercalate p.names
  match p.start with
  | .here => if p.names.isEmpty then "." else body
  | .root => "/" ++ body
  | .doubleRoot => "//" ++ body

/-- The number of bytes of a path's text. --/
def byteCount (p : Path) : Nat :=
  p.text.utf8ByteSize

def hasNull (p : Path) : Bool :=
  p.names.any fun n => n.toList.contains '\x00'

end Path

end Retag.Files

import Retag.Failure
import Retag.Files.Path
import Retag.Files.Tree

/-! Following paths. A walk goes from directory to directory and follows every link that it meets, at most forty in
    all; this is how files are opened. Resolving a path replaces links by what they name, and takes names that
    lead nowhere as they are. -/

namespace Retag.Files

/-- Goes by names alone, whatever stands there. --/
def byNames (l : Location) : List String → Location
  | [] => l
  | name :: rest =>
    if name = "" || name = "." then byNames l rest
    else if name = ".." then byNames l.dropLast rest
    else byNames (l ++ [name]) rest

/-- Goes on by names alone from a link that is not followed. Behind two slashes in a row the names start at the root
    directory. --/
def pastLink (l : Location) : List String → Location
  | "" :: name :: rest => byNames [] (name :: rest)
  | rest => byNames l rest

/-- The greatest number of bytes of a name. --/
def maxName : Nat := 255

/-- The greatest number of bytes of a path. --/
def maxPath : Nat := 4095

/-- The number of bytes of the path of a location. --/
def pathBytes : Location → Nat
  | [] => 0
  | name :: rest => name.utf8ByteSize + 1 + pathBytes rest

/-- The greatest number of links on one walk. --/
def maxLinks : Nat := 40

/-- The start and the names of a link's target, with the empty names and points in it. --/
def targetNames (target : String) : Start × List String :=
  (Path.startOf target.toList, (splitNames target.toList).map String.ofList)

namespace FileTree

/-- The directory at which a path starts; a link's target starts at the directory that holds the link. --/
def startOf (here : Location) : Start → Location
  | .here => here
  | .root | .doubleRoot => []

/-- Walks along names from a directory; `follow` goes on behind a link. Names behind a file lead nowhere, even
    empty ones. --/
def walkWith (t : FileTree) (follow : Location → List String → Except FileError Location) (l : Location) :
    List String → Except FileError Location
  | [] => .ok l
  | name :: rest =>
    match t.get? l with
    -- The place is looked at before the name, so that even a point leads nowhere behind a file.
    | some (.file ..) => .error .notDirectory
    | none => .error .missing
    | _ =>
      if name = "" || name = "." then walkWith t follow l rest
      else if name = ".." then walkWith t follow l.dropLast rest
      else if maxName < name.utf8ByteSize then .error .nameTooLong
      else match t.get? (l ++ [name]) with
        | none => .error .missing
        | some (.link target) =>
          let (start, names) := targetNames target
          follow (startOf l start) (names ++ rest)
        | some _ => walkWith t follow (l ++ [name]) rest

/-- Walks along names from a directory, following at most a number of links. --/
def walk (t : FileTree) : (links : Nat) → Location → List String → Except FileError Location
  | 0 => t.walkWith fun _ _ => .error .linkLoop
  | links + 1 => t.walkWith (t.walk links)

/-- The location that a path leads to. --/
def find (t : FileTree) (p : Path) : Except FileError Location :=
  if maxPath < p.byteCount then .error .nameTooLong else t.walk maxLinks (startOf t.here p.start) p.names

/-- Resolves names from a location on a way without links; `enter` resolves the target of a link at a location.
    Says whether no link was met again within itself: from such a link on, the names are taken as they are. --/
def resolveWith (t : FileTree) (enter : Location → Location → List String → Option (Location × Bool))
    (l : Location) : List String → Location × Bool
  | [] => (l, true)
  | name :: rest =>
    if name = "" || name = "." then resolveWith t enter l rest
    else if name = ".." then resolveWith t enter l.dropLast rest
    else match t.get? (l ++ [name]) with
      | some (.link target) =>
        let (start, names) := targetNames target
        match enter (l ++ [name]) (startOf l start) names with
        | some (m, true) => resolveWith t enter m rest
        | some (m, false) => (pastLink m rest, false)
        | none => (pastLink (l ++ [name]) rest, false)
      | _ => resolveWith t enter (l ++ [name]) rest

/-- Resolves names from a location; links in `entered` are being resolved already. --/
def resolveFrom (t : FileTree) :
    (links : Nat) → (entered : List Location) → Location → List String → Location × Bool
  | 0, _ => t.resolveWith fun _ _ _ => none
  | links + 1, entered => t.resolveWith fun link l names =>
    if entered.contains link then none else some (t.resolveFrom links (link :: entered) l names)

/-- The location that a path stands for once its links are replaced. --/
def resolve (t : FileTree) (p : Path) : Location :=
  (t.resolveFrom (t.linkCount + 1) [] (startOf t.here p.start) p.names).1

/-- The location that a walk by the names of a location leads to. --/
def follow (t : FileTree) (l : Location) : Except FileError Location :=
  if maxPath < pathBytes l then .error .nameTooLong else t.walk maxLinks [] l

/-- Whether a walk by the names of a location ends in endless links. --/
def isEndless (t : FileTree) (l : Location) : Bool :=
  match t.follow l with
  | .error e => e == .linkLoop
  | .ok _ => false

end FileTree

end Retag.Files

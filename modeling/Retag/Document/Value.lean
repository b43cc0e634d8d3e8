import Retag.Document.Basic

/-! Values: the finite view of a document. Shared parts are written out wherever they occur, and a container that
    is met again inside itself is given by the way up to it. -/

namespace Retag

inductive ContainerKind where
  | list
  | pair
  | mapping
  | set
  deriving DecidableEq, Repr

/-- A value as a tree. --/
inductive Value where
  | scalar (v : Scalar)
  | list (items : List Value)
  | pair (first second : Value)
  | mapping (entries : List (Value × Value))
  | set (members : List Value)
  /-- The container that many levels up, the nearest one being one level up. --/
  | enclosing (levels : Nat) (kind : ContainerKind)
  deriving Inhabited, Repr

namespace Value

def str (s : String) : Value :=
  .scalar (.str s)

/-- A text, which may be torn. --/
def ofText : Text.Wobbly → Value
  | .whole s => .str s
  | .torn t => .scalar (.torn t)

def null : Value :=
  .scalar .null

def isScalar : Value → Bool
  | .scalar _ => true
  | _ => false

end Value

namespace Cell

/-- The kind of a cell that is a container. --/
def kind? : Cell → Option ContainerKind
  | .scalar _ => none
  | .list _ => some .list
  | .pair .. => some .pair
  | .mapping _ => some .mapping
  | .set _ => some .set

end Cell

namespace Cells

/-- The value of a cell below a row of open containers, the nearest first. Open containers differ, so there are
    never more of them than cells. --/
def view (cells : Cells) : (depth : Nat) → (above : List Ref) → Ref → Value
  | 0, _, _ => .null
  | depth + 1, above, r =>
    let inner := cells.view depth (r :: above)
    match cells.get r with
    | .scalar v => .scalar v
    | c =>
      match above.idxOf? r, c.kind? with
      | some i, some kind => .enclosing (i + 1) kind
      | _, _ => match c with
        | .scalar v => .scalar v
        | .list items => .list (items.map inner)
        | .pair first second => .pair (inner first) (inner second)
        | .mapping entries => .mapping (entries.map fun e => (inner e.1, inner e.2))
        | .set members => .set (members.map inner)

def value (cells : Cells) (r : Ref) : Value :=
  cells.view (cells.size + 2) [] r

end Cells

namespace Document

def value (d : Document) : Value :=
  d.cells.value d.root

end Document

namespace Value

mutual

/-- Adds the cells of a value: the cells with them, and the name of the whole. Every part gets a cell of its own,
    and the parts come before the whole. --/
def addTo (cells : Cells) : Value → Cells × Ref
  | .scalar v => (cells.push (.scalar v), cells.size)
  | .list items =>
    let (cells, rs) := addItems cells items
    (cells.push (.list rs), cells.size)
  | .pair first second =>
    let (cells, a) := addTo cells first
    let (cells, b) := addTo cells second
    (cells.push (.pair a b), cells.size)
  | .mapping entries =>
    let (cells, es) := addEntries cells entries []
    (cells.push (.mapping es), cells.size)
  | .set members =>
    let (cells, rs) := addItems cells members
    (cells.push (.set rs), cells.size)
  | .enclosing .. => (cells.push (.scalar .null), cells.size)

def addItems (cells : Cells) : List Value → Cells × List Ref
  | [] => (cells, [])
  | v :: rest =>
    let (cells, r) := addTo cells v
    let (cells, rs) := addItems cells rest
    (cells, r :: rs)

/-- Adds the cells of the entries of a mapping to those that it has. --/
def addEntries (cells : Cells) : List (Value × Value) → List (Ref × Ref) → Cells × List (Ref × Ref)
  | [], es => (cells, es)
  | (k, v) :: rest, es =>
    let (cells, a) := addTo cells k
    let (cells, b) := addTo cells v
    addEntries cells rest (cells.insertEntry es a b)

end

end Value

namespace Document

/-- The document of a value, which shares no parts. --/
def ofValue (v : Value) : Document :=
  let (cells, root) := v.addTo #[]
  ⟨cells, root⟩

end Document

end Retag

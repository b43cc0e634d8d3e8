import Retag.Calendar.Basic
import Retag.Number.Binary64
import Retag.Text.Wobbly

/-! Documents. A document is a graph of cells: a cell holds a scalar or refers to the cells of its parts, so that
    one cell may be part of several others and even of itself. Changing a cell changes it wherever it is a part. -/

namespace Retag

open Number Calendar

/-- A value without parts. --/
inductive Scalar where
  | null
  | bool (b : Bool)
  | int (n : Int)
  | float (x : Binary64)
  | str (s : String)
  /-- A text with halves of characters in it. --/
  | torn (t : Text.Torn)
  | bytes (bs : List UInt8)
  | date (d : Date)
  | moment (m : Moment)
  deriving DecidableEq, Repr

/-- The name of a cell within its document. --/
abbrev Ref := Nat

/-- A scalar, or a container and the names of its parts. A pair has two parts that never change; a mapping keeps
    its entries in the order in which their keys came. --/
inductive Cell where
  | scalar (v : Scalar)
  | list (items : List Ref)
  | pair (first second : Ref)
  | mapping (entries : List (Ref × Ref))
  | set (members : List Ref)
  deriving DecidableEq, Repr

abbrev Cells := Array Cell

namespace Cells

/-- The cell of a name; a name without a cell stands for null. --/
def get (cells : Cells) (r : Ref) : Cell :=
  (cells[r]?).getD (.scalar .null)

def scalar? (cells : Cells) (r : Ref) : Option Scalar :=
  match cells.get r with
  | .scalar v => some v
  | _ => none

/-- Puts a cell in place of another. --/
def put (cells : Cells) (r : Ref) (c : Cell) : Cells :=
  cells.setIfInBounds r c

end Cells

/-- A document: its cells, and the name of the cell that is the whole. --/
structure Document where
  cells : Cells
  root : Ref
  deriving DecidableEq, Repr

namespace Scalar

/-- Whether two scalars are equal as keys. Numbers are compared by value whatever their kind, true being one and
    false zero. --/
def same : Scalar → Scalar → Bool
  | .null, .null => true
  | .str s, .str t => s == t
  | .torn s, .torn t => s == t
  | .bytes a, .bytes b => a == b
  | .date d, .date e => d == e
  | .moment m, .moment n => m.same n
  | .float x, .float y => x.sameValue y
  | .float x, .int n | .int n, .float x => x.isWhole n
  | .float x, .bool b | .bool b, .float x => x.isWhole b.toInt
  | .int m, .int n => m == n
  | .int n, .bool b | .bool b, .int n => n == b.toInt
  | .bool a, .bool b => a == b
  | _, _ => false

/-- Equality with a text holds of that text alone. --/
theorem same_str {v : Scalar} {s : String} : v.same (.str s) = true ↔ v = .str s := by
  cases v <;> simp [same]

end Scalar

namespace Cells

/-- Whether two cells are the same key: one cell, or two equal scalars. --/
def sameKey (cells : Cells) (r s : Ref) : Bool :=
  r == s || match cells.scalar? r, cells.scalar? s with
    | some v, some w => v.same w
    | _, _ => false

/-- Gives a key its value. A key that is there keeps its place and its cell; a new one comes last. --/
def insertEntry (cells : Cells) (entries : List (Ref × Ref)) (key value : Ref) : List (Ref × Ref) :=
  match entries with
  | [] => [(key, value)]
  | (k, v) :: rest =>
    if cells.sameKey k key then (k, value) :: rest else (k, v) :: insertEntry cells rest key value

/-- Whether a cell is a given text. --/
def isText (cells : Cells) (r : Ref) (s : String) : Bool :=
  match cells.scalar? r with
  | some v => v.same (.str s)
  | none => false

/-- The value of a text among the entries of a mapping. --/
def lookup? (cells : Cells) (entries : List (Ref × Ref)) (key : String) : Option Ref :=
  (entries.find? fun e => cells.isText e.1 key).map Prod.snd

end Cells

end Retag

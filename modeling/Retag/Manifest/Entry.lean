import Retag.Document.Value
import Retag.Failure

/-! The entry of a manifest whose tag is addressed: the first item of the list `images`, or the first item that is
    a mapping of the given name. -/

namespace Retag.Manifest

def imagesKey : String := "images"

def nameKey : String := "name"

def tagKey : String := "newTag"

/-- An entry: its place in the list and the name of its cell. --/
structure Slot where
  index : Nat
  cell : Ref
  deriving DecidableEq, Repr

/-- The entries of a cell that is a mapping. --/
def entriesOf? (cells : Cells) (r : Ref) : Option (List (Ref × Ref)) :=
  match cells.get r with
  | .mapping entries => some entries
  | _ => none

/-- Whether a cell is a mapping with a given text as its name. --/
def isNamed (cells : Cells) (name : String) (r : Ref) : Bool :=
  match entriesOf? cells r with
  | some entries => ((cells.lookup? entries nameKey).map fun v => cells.isText v name).getD false
  | none => false

def images (d : Document) : Except Malformation (List Ref) :=
  match entriesOf? d.cells d.root with
  | none => .error .notMapping
  | some entries => match d.cells.lookup? entries imagesKey with
    | none => .error .imagesMissing
    | some r => match d.cells.get r with
      | .scalar .null => .error .imagesMissing
      | .list [] => .error .imagesEmpty
      | .list items => .ok items
      | _ => .error .imagesNotList

/-- The addressed item of the list of entries. --/
def select (cells : Cells) (items : List Ref) : Option String → Except Malformation Slot
  | none => match items with
    | [] => .error .imagesEmpty
    | r :: _ => if (entriesOf? cells r).isSome then .ok ⟨0, r⟩ else .error .firstNotMapping
  | some name => match items.findIdx? (isNamed cells name) with
    | some i => .ok ⟨i, items[i]?.getD 0⟩
    | none => .error (.noImage name)

/-- The addressed entry of a document. --/
def locate (d : Document) (selector : Option String) : Except Malformation Slot := do
  select d.cells (← images d) selector

/-- The cell of an entry's tag. --/
def tagCell? (cells : Cells) (entry : Ref) : Option Ref :=
  (entriesOf? cells entry).bind fun entries => cells.lookup? entries tagKey

/-- Writes a text as the tag of an entry, in the old place or else last. --/
def writeTag (cells : Cells) (entry : Ref) (tag : String) : Cells :=
  match entriesOf? cells entry with
  | none => cells
  | some entries =>
    let key := cells.size
    let cells := (cells.push (.scalar (.str tagKey))).push (.scalar (.str tag))
    Cells.put cells entry (.mapping (Cells.insertEntry cells entries key (key + 1)))

end Retag.Manifest

import Retag.Document.Value
import Retag.Journal.Record
import Retag.Text.Source

/-! The host of a program: what its stack has room for, in which order it goes through a set, and what its output takes.
    What is nested too deep for the stack breaks the program down; where that begins is the host's affair. -/

namespace Retag

class Host where
  /-- Whether the stack has room for the reading of a source. --/
  reads : Text.Source → Bool
  /-- Whether the stack has room for the writing of a document. --/
  writes : Document → Bool
  /-- Whether the stack has room for the text of a value. --/
  shows : Value → Bool
  /-- Whether a record can be made where so many ways of making records rest on each other. --/
  makes : Journal.Record → (depth : Nat) → Bool
  /-- Whether the output takes a text. --/
  takes : Text.Wobbly → Bool
  /-- The order in which the members of a set are gone through, given the order in which they came. --/
  arrange : Cells → List Ref → List Ref
  arrange_perm (cells : Cells) (members : List Ref) : (arrange cells members).Perm members

namespace Host

/-- A host with room for everything, sets that stay in the order in which their members came, and an output for every
    text that is not torn. --/
@[reducible] def ample : Host where
  reads _ := true
  writes _ := true
  shows _ := true
  makes _ _ := true
  takes
    | .whole _ => true
    | .torn _ => false
  arrange _ members := members
  arrange_perm _ _ := .refl _

end Host

section

variable [Host]

/-- The cell with the members of a set in the order of the host. --/
def Cell.arranged (cells : Cells) : Cell → Cell
  | .set members => .set (Host.arrange cells members)
  | c => c

/-- The document with the members of its sets in the order of the host. --/
def Document.arranged (d : Document) : Document :=
  ⟨d.cells.map (Cell.arranged d.cells), d.root⟩

end

end Retag

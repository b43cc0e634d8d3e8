import Retag.Calendar.Timestamp
import Retag.Document.Value
import Retag.Failure
import Retag.Markup.Tag
import Retag.Number.Decimal
import Retag.Text.Base64

/-! Outlines: what is written for a document, as a tree. A part with several places is written out at the first,
    under an anchor, and named by an alias at the others. Scalars other than days and moments have no identity
    that is worth keeping, and are written out everywhere. -/

namespace Retag.Markup

open Number

/-- A tree to be written. A literal scalar is laid out in lines as it is. --/
inductive Outline where
  | alias (name : String)
  | scalar (anchor : Option String) (tag : Tag) (text : Text.Wobbly) (literal : Bool)
  | seq (anchor : Option String) (items : List Outline)
  | map (anchor : Option String) (tag : Tag) (entries : List (Outline × Outline))
  deriving Repr

/-- The text of a floating-point number. It always has a point, so that it reads back as one. --/
def floatForm (x : Binary64) : String :=
  match x with
  | .nan => ".nan"
  | .infinity negative => if negative then "-.inf" else ".inf"
  | .finite .. =>
    let cs := x.text.toList
    if cs.contains '.' then x.text
    else String.ofList (cs.takeWhile (· ≠ 'e') ++ '.' :: '0' :: cs.dropWhile (· ≠ 'e'))

/-- The tag and text under which a scalar is written, and whether it is laid out in lines. --/
def scalarForm (v : Scalar) : Except Breakdown (Tag × Text.Wobbly × Bool) :=
  match v with
  | .null => .ok (.null, "null", false)
  | .bool b => .ok (.bool, if b then "true" else "false", false)
  | .int n => match writeInt? n with
    | some s => .ok (.int, s, false)
    | none => .error .longNumber
  | .float x => .ok (.float, floatForm x, false)
  | .str s => .ok (.str, s, false)
  | .torn t => .ok (.str, .torn t, false)
  | .bytes bs => .ok (.binary, String.ofList (Text.Base64.encodeLines bs), true)
  | .date d => .ok (.timestamp, d.text, false)
  | .moment m => .ok (.timestamp, m.text ' ', false)

/-- Whether a cell keeps its identity when it is written. --/
def keepsIdentity : Cell → Bool
  | .scalar (.date _) | .scalar (.moment _) => true
  | .scalar _ => false
  | _ => true

/-- The parts of a cell, in the order in which they are written. --/
def parts : Cell → List Ref
  | .scalar _ => []
  | .list items => items
  | .pair first second => [first, second]
  | .mapping entries => entries.flatMap fun e => [e.1, e.2]
  | .set members => members

/-- The cells met so far, and those met again, in the order in which that happened. --/
structure Survey where
  met : List Ref := []
  again : List Ref := []

namespace Survey

/-- Visits a cell and its parts. No container is entered twice, so the depth is bounded by their number. --/
def visit (cells : Cells) : Nat → Survey → Ref → Survey
  | 0, s, _ => s
  | depth + 1, s, r =>
    let c := cells.get r
    if !keepsIdentity c then s
    else if s.met.contains r then
      if s.again.contains r then s else { s with again := s.again ++ [r] }
    else (parts c).foldl (visit cells depth) { s with met := r :: s.met }

/-- The cells of a document that are met again. --/
def shared (d : Document) : List Ref :=
  (visit d.cells (d.cells.size + 1) {} d.root).again

/-- The anchor of the cell at a place among those that are met again. --/
def anchorName (i : Nat) : String :=
  String.ofList ('i' :: 'd' :: Calendar.padded 3 (i + 1))

def anchor? (again : List Ref) (r : Ref) : Option String :=
  (again.idxOf? r).map anchorName

end Survey

namespace Outline

/-- Draws a row of parts one after the other. --/
def drawAll (draw : List Ref → Ref → Except Breakdown (Outline × List Ref)) (met : List Ref) :
    List Ref → Except Breakdown (List Outline × List Ref)
  | [] => .ok ([], met)
  | r :: rest => do
    let (o, met) ← draw met r
    let (os, met) ← drawAll draw met rest
    return (o :: os, met)

def drawEntries (draw : List Ref → Ref → Except Breakdown (Outline × List Ref)) (met : List Ref) :
    List (Ref × Ref) → Except Breakdown (List (Outline × Outline) × List Ref)
  | [] => .ok ([], met)
  | (k, v) :: rest => do
    let (key, met) ← draw met k
    let (value, met) ← draw met v
    let (os, met) ← drawEntries draw met rest
    return ((key, value) :: os, met)

/-- The entry of a member of a set: a key without a value. --/
def member (o : Outline) : Outline × Outline :=
  (o, .scalar none .null "null" false)

/-- Draws a cell, given the cells drawn so far. --/
def draw (cells : Cells) (again : List Ref) : Nat → List Ref → Ref → Except Breakdown (Outline × List Ref)
  | 0, met, _ => .ok (.alias "", met)
  | depth + 1, met, r => do
    let c := cells.get r
    let anchor := Survey.anchor? again r
    if keepsIdentity c && met.contains r then return (.alias (anchor.getD ""), met)
    let met := if keepsIdentity c then r :: met else met
    let inner := draw cells again depth
    match c with
    | .scalar v =>
      let (tag, text, literal) ← scalarForm v
      return (.scalar (if keepsIdentity c then anchor else none) tag text literal, met)
    | .list items =>
      let (os, met) ← drawAll inner met items
      return (.seq anchor os, met)
    | .pair first second =>
      let (os, met) ← drawAll inner met [first, second]
      return (.seq anchor os, met)
    | .mapping entries =>
      let (os, met) ← drawEntries inner met entries
      return (.map anchor .map os, met)
    | .set members =>
      let (os, met) ← drawAll inner met members
      return (.map anchor .set (os.map member), met)

def ofDocument (d : Document) : Except Breakdown Outline := do
  let (o, _) ← draw d.cells (Survey.shared d) (d.cells.size + 1) [] d.root
  return o

end Outline

end Retag.Markup

import Retag.Markup.Document
import Retag.Proofs.Markup.Outline

/-! Pairs among the cells of a document. A pair is written as the list of its two parts, so a document with lists in the
    place of its pairs is written in the same way. -/

namespace Retag

open Markup

/-- The cell with a list in the place of a pair. --/
def Cell.flat : Cell → Cell
  | .pair a b => .list [a, b]
  | c => c

/-- The cells with lists in the place of pairs. --/
def Cells.flat (cells : Cells) : Cells :=
  Array.map Cell.flat cells

/-- The document with lists in the place of pairs. --/
def Document.flat (d : Document) : Document :=
  ⟨d.cells.flat, d.root⟩

variable {cells : Cells} {d : Document} {r s : Ref}

@[simp] theorem Cells.size_flat (cells : Cells) : cells.flat.size = cells.size := Array.size_map

@[simp] theorem Cells.get_flat (cells : Cells) (r : Ref) : cells.flat.get r = (cells.get r).flat := by
  rw [get, get, flat, Array.getElem?_map]
  cases cells[r]? <;> rfl

theorem Cells.flat_push (cells : Cells) (c : Cell) : Cells.flat (cells.push c) = cells.flat.push c.flat :=
  Array.map_push

theorem Cells.flat_put (cells : Cells) (r : Ref) (c : Cell) : (cells.put r c).flat = cells.flat.put r c.flat :=
  Array.map_setIfInBounds

@[simp] theorem Cells.scalar?_flat (cells : Cells) (r : Ref) : cells.flat.scalar? r = cells.scalar? r := by
  rw [scalar?, scalar?, get_flat]
  cases cells.get r <;> rfl

@[simp] theorem Cells.sameKey_flat (cells : Cells) (r s : Ref) : cells.flat.sameKey r s = cells.sameKey r s := by
  rw [sameKey, sameKey, scalar?_flat, scalar?_flat]

@[simp] theorem Cells.insertEntry_flat (cells : Cells) (entries : List (Ref × Ref)) (key value : Ref) :
    cells.flat.insertEntry entries key value = cells.insertEntry entries key value := by
  induction entries with
  | nil => rfl
  | cons e entries ih => rw [insertEntry, insertEntry, sameKey_flat, ih]

@[simp] theorem keepsIdentity_flat (c : Cell) : keepsIdentity c.flat = keepsIdentity c := by
  cases c <;> rfl

@[simp] theorem parts_flat (c : Cell) : parts c.flat = parts c := by
  cases c <;> rfl

theorem Cells.reaches_flat : cells.flat.Reaches r s ↔ cells.Reaches r s := by
  have hpart : cells.flat.IsPart = cells.IsPart := by
    funext q t
    rw [IsPart, IsPart, get_flat, parts_flat]
  rw [Reaches, Reaches, hpart]

theorem Document.isNull_flat (d : Document) : d.flat.isNull = d.isNull := by
  unfold isNull flat
  rw [Cells.get_flat]
  cases d.cells.get d.root <;> rfl

namespace Markup

theorem Survey.visit_flat (cells : Cells) (depth : Nat) : visit cells.flat depth = visit cells depth := by
  induction depth with
  | zero => rfl
  | succ depth ih =>
    funext s r
    simp only [visit, Cells.get_flat, keepsIdentity_flat, parts_flat, ih]

namespace Outline

theorem draw_flat (cells : Cells) (again : List Ref) (depth : Nat) :
    draw cells.flat again depth = draw cells again depth := by
  induction depth with
  | zero => rfl
  | succ depth ih =>
    funext met r
    simp only [draw, Cells.get_flat, keepsIdentity_flat, ih]
    cases cells.get r <;> rfl

/-- Lists are drawn as the pairs were. --/
theorem ofDocument_flat (d : Document) : ofDocument d.flat = ofDocument d := by
  rw [ofDocument, ofDocument, Survey.shared, Survey.shared, Document.flat, Survey.visit_flat, draw_flat, Cells.size_flat]

end Outline

end Markup

end Retag

import Retag.Document.Value

/-! Cells that are added and changed, and entries that are inserted among others. -/

namespace Retag

theorem Cell.kind?_eq_none_iff {c : Cell} : c.kind? = none ↔ ∃ v, c = .scalar v := by
  cases c <;> simp [kind?]

/-- Every scalar but the number that is no number is the same key as itself. --/
theorem Scalar.same_self {v : Scalar} (h : v ≠ .float .nan) : v.same v = true := by
  cases v with
  | float x =>
    cases x with
    | nan => exact absurd rfl h
    | infinity negative => simp [same, Number.Binary64.sameValue]
    | finite negative m e => simp [same, Number.Binary64.sameValue]
  | moment m =>
    simp only [same, Calendar.Moment.same]
    cases m.offset <;> simp
  | _ => simp [same]

namespace Cells

theorem get_push_of_lt {cells : Cells} {r : Ref} (h : r < cells.size) (c : Cell) :
    Cells.get (cells.push c) r = cells.get r := by
  rw [get, get, Array.getElem?_push_lt h, Array.getElem?_eq_getElem h]

theorem get_push_self (cells : Cells) (c : Cell) : Cells.get (cells.push c) cells.size = c := by
  simp [get]

theorem get_put_self {cells : Cells} {r : Ref} (h : r < cells.size) (c : Cell) : (cells.put r c).get r = c := by
  simp [get, put, h]

theorem get_put_ne {cells : Cells} {r s : Ref} (h : s ≠ r) (c : Cell) : (cells.put r c).get s = cells.get s := by
  simp [get, put, Ne.symm h]

theorem size_put (cells : Cells) (r : Ref) (c : Cell) : (cells.put r c).size = cells.size :=
  Array.size_setIfInBounds

theorem scalar?_eq_some_iff {cells : Cells} {r : Ref} {v : Scalar} :
    cells.scalar? r = some v ↔ cells.get r = .scalar v := by
  unfold scalar?
  cases cells.get r <;> simp

theorem isText_iff_get {cells : Cells} {r : Ref} {s : String} :
    cells.isText r s = true ↔ cells.get r = .scalar (.str s) := by
  unfold isText scalar?
  cases cells.get r <;> simp [Scalar.same_str]

/-- To be the same key as another cell that is a text is to be this text. --/
theorem sameKey_of_str {cells : Cells} {r s : Ref} {text : String} (hne : r ≠ s)
    (hs : cells.scalar? s = some (.str text)) : cells.sameKey r s = cells.isText r text := by
  rw [sameKey, beq_false_of_ne hne, Bool.false_or, hs, isText]
  cases cells.scalar? r <;> rfl

theorem insertEntry_of_sameKey_eq_false {cells : Cells} {entries : List (Ref × Ref)} {key : Ref} (value : Ref)
    (h : ∀ e ∈ entries, cells.sameKey e.1 key = false) :
    cells.insertEntry entries key value = entries ++ [(key, value)] := by
  induction entries with
  | nil => rfl
  | cons e entries ih =>
    rw [insertEntry, h e List.mem_cons_self, ih fun e he => h e (List.mem_cons_of_mem _ he)]
    rfl

/-- Two cells are different scalars, and are different as keys. --/
def IsApart (cells : Cells) (r s : Ref) : Prop :=
  ∃ v w, cells.get r = .scalar v ∧ cells.get s = .scalar w ∧ v.same w = false ∧ v ≠ w

theorem IsApart.sameKey {cells : Cells} {r s : Ref} (h : cells.IsApart r s) : cells.sameKey r s = false := by
  obtain ⟨v, w, hv, hw, hsame, hne⟩ := h
  have hrs : r ≠ s := by
    rintro rfl
    cases hv.symm.trans hw
    exact hne rfl
  simp [Cells.sameKey, scalar?, hv, hw, hsame, hrs]

end Cells

end Retag

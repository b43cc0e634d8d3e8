import Retag.Document.Shown

/-! Values that cannot be shown as text: exactly those that hold a whole number of too many digits. -/

namespace Retag.Value

/-- A value is a whole number of too many digits, or has one somewhere inside. --/
inductive HoldsLongNumber : Value → Prop where
  | int {n : Int} (h : Number.writeInt? n = none) : HoldsLongNumber (.scalar (.int n))
  | item {items : List Value} {v : Value} (hv : v ∈ items) (h : HoldsLongNumber v) : HoldsLongNumber (.list items)
  | first {v w : Value} (h : HoldsLongNumber v) : HoldsLongNumber (.pair v w)
  | second {v w : Value} (h : HoldsLongNumber w) : HoldsLongNumber (.pair v w)
  | key {entries : List (Value × Value)} {e : Value × Value} (he : e ∈ entries) (h : HoldsLongNumber e.1) :
      HoldsLongNumber (.mapping entries)
  | entry {entries : List (Value × Value)} {e : Value × Value} (he : e ∈ entries) (h : HoldsLongNumber e.2) :
      HoldsLongNumber (.mapping entries)
  | member {members : List Value} {v : Value} (hv : v ∈ members) (h : HoldsLongNumber v) :
      HoldsLongNumber (.set members)

theorem shown?_scalar_eq_none_iff {v : Scalar} : v.shown? = none ↔ HoldsLongNumber (.scalar v) := by
  constructor
  · intro h
    cases v with
    | int n => exact .int h
    | _ => cases h
  · rintro ⟨h⟩
    exact h

mutual

/-- There is no text for a value inside a container exactly if it holds a number that is too long. --/
theorem shown?_eq_none_iff (v : Value) : v.shown? = none ↔ v.HoldsLongNumber := by
  cases v with
  | scalar v => exact shown?_scalar_eq_none_iff
  | list items =>
    rw [shown?, Option.map_eq_none_iff, shownItems?_eq_none_iff items]
    exact ⟨fun ⟨v, hv, h⟩ => .item hv h, fun h => by cases h with | item hv h => exact ⟨_, hv, h⟩⟩
  | pair v w =>
    have hv := shown?_eq_none_iff v
    have hw := shown?_eq_none_iff w
    rw [shown?]
    constructor
    · intro h
      cases hsv : v.shown? with
      | none => exact .first (hv.mp hsv)
      | some a =>
        cases hsw : w.shown? with
        | none => exact .second (hw.mp hsw)
        | some b => simp [hsv, hsw] at h
    · rintro (h | h | h | h)
      · simp [hv.mpr h]
      · cases v.shown? <;> simp [hw.mpr h]
  | mapping entries =>
    rw [shown?, Option.map_eq_none_iff, shownEntries?_eq_none_iff entries]
    constructor
    · rintro ⟨e, he, h | h⟩
      · exact .key he h
      · exact .entry he h
    · intro h
      cases h with
      | key he h => exact ⟨_, he, Or.inl h⟩
      | entry he h => exact ⟨_, he, Or.inr h⟩
  | set members =>
    rw [shown?]
    split
    · rename_i hempty
      rw [List.isEmpty_iff] at hempty
      subst hempty
      simp only [reduceCtorEq, false_iff]
      intro h
      cases h with
      | member hv h => cases hv
    · rw [Option.map_eq_none_iff, shownItems?_eq_none_iff members]
      exact ⟨fun ⟨v, hv, h⟩ => .member hv h, fun h => by cases h with | member hv h => exact ⟨_, hv, h⟩⟩
  | enclosing levels kind =>
    simp only [shown?, reduceCtorEq, false_iff]
    intro h
    cases h

theorem shownItems?_eq_none_iff (vs : List Value) : shownItems? vs = none ↔ ∃ v ∈ vs, v.HoldsLongNumber := by
  cases vs with
  | nil => simp [shownItems?]
  | cons v rest =>
    have hv := shown?_eq_none_iff v
    have hrest := shownItems?_eq_none_iff rest
    simp only [List.mem_cons, exists_eq_or_imp, ← hv, ← hrest, shownItems?]
    cases v.shown? <;> cases shownItems? rest <;> simp

theorem shownEntries?_eq_none_iff (es : List (Value × Value)) :
    shownEntries? es = none ↔ ∃ e ∈ es, e.1.HoldsLongNumber ∨ e.2.HoldsLongNumber := by
  cases es with
  | nil => simp [shownEntries?]
  | cons e rest =>
    obtain ⟨k, v⟩ := e
    have hk := shown?_eq_none_iff k
    have hv := shown?_eq_none_iff v
    have hrest := shownEntries?_eq_none_iff rest
    simp only [List.mem_cons, exists_eq_or_imp, ← hk, ← hv, ← hrest, shownEntries?]
    cases k.shown? <;> cases v.shown? <;> cases shownEntries? rest <;> simp

end

/-- There is no text for a value exactly if it holds a number that is too long. --/
theorem text?_eq_none_iff (v : Value) : v.text? = none ↔ v.HoldsLongNumber := by
  cases v with
  | scalar v =>
    rw [text?, ← shown?_scalar_eq_none_iff]
    cases v <;> simp [Scalar.text?, Scalar.shown?]
  | _ =>
    unfold text?
    exact Option.map_eq_none_iff.trans (shown?_eq_none_iff _)

end Retag.Value

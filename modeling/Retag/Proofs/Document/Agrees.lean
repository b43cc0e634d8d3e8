import Mathlib.Data.List.Forall2
import Retag.Document.Value

/-! Documents that agree. Two documents agree if going down both of them in the same way always leads to cells of the
    same kind: equal scalars, or containers with as many parts in the same order. -/

namespace Retag

/-! ### Rows -/

section

variable {α β : Type} {R : α → β → Prop} {as as' : List α} {bs bs' : List β}

theorem forall₂_append (h : List.Forall₂ R as bs) (h' : List.Forall₂ R as' bs') :
    List.Forall₂ R (as ++ as') (bs ++ bs') := by
  induction h with
  | nil => exact h'
  | cons hab _ ih => exact .cons hab ih

theorem exists_of_forall₂ (h : List.Forall₂ R as bs) {a : α} (ha : a ∈ as) : ∃ b ∈ bs, R a b := by
  induction h with
  | nil => cases ha
  | cons hab _ ih =>
    rcases List.mem_cons.mp ha with rfl | ha
    · exact ⟨_, List.mem_cons_self, hab⟩
    · obtain ⟨b, hb, hR⟩ := ih ha
      exact ⟨b, List.mem_cons_of_mem _ hb, hR⟩

/-- What is known of the names in a row of entries may be added to what relates them. --/
theorem forall₂_entries_and {P : α → Prop} {es : List (α × α)} {es' : List (β × β)}
    (h : List.Forall₂ (fun e e' => R e.1 e'.1 ∧ R e.2 e'.2) es es') (hP : ∀ e ∈ es, P e.1 ∧ P e.2) :
    List.Forall₂ (fun e e' => (P e.1 ∧ R e.1 e'.1) ∧ (P e.2 ∧ R e.2 e'.2)) es es' :=
  ((List.forall₂_and_left _ _).mpr ⟨hP, h⟩).imp fun _ _ h => ⟨⟨h.1.1, h.2.1⟩, ⟨h.1.2, h.2.2⟩⟩

end

/-! ### Agreement -/

/-- Two cells agree, given which of their parts do. --/
inductive Cell.Agrees (R : Ref → Ref → Prop) : Cell → Cell → Prop
  | scalar (v : Scalar) : Agrees R (.scalar v) (.scalar v)
  | list {items items' : List Ref} (h : List.Forall₂ R items items') : Agrees R (.list items) (.list items')
  | pair {a b a' b' : Ref} (ha : R a a') (hb : R b b') : Agrees R (.pair a b) (.pair a' b')
  | mapping {entries entries' : List (Ref × Ref)}
      (h : List.Forall₂ (fun e e' => R e.1 e'.1 ∧ R e.2 e'.2) entries entries') :
      Agrees R (.mapping entries) (.mapping entries')
  | set {members members' : List Ref} (h : List.Forall₂ R members members') : Agrees R (.set members) (.set members')

theorem Cell.Agrees.mono {R R' : Ref → Ref → Prop} {c c' : Cell} (h : Agrees R c c') (hR : ∀ r s, R r s → R' r s) :
    Agrees R' c c' := by
  cases h with
  | scalar v => exact .scalar v
  | list h => exact .list (h.imp hR)
  | pair ha hb => exact .pair (hR _ _ ha) (hR _ _ hb)
  | mapping h => exact .mapping (h.imp fun _ _ h => ⟨hR _ _ h.1, hR _ _ h.2⟩)
  | set h => exact .set (h.imp hR)

theorem Cell.Agrees.flip {R : Ref → Ref → Prop} {c c' : Cell} (h : Agrees R c c') : Agrees (fun r s => R s r) c' c := by
  cases h with
  | scalar v => exact .scalar v
  | list h => exact .list h.flip
  | pair ha hb => exact .pair ha hb
  | mapping h => exact .mapping h.flip
  | set h => exact .set h.flip

theorem Cell.Agrees.eq_scalar {R : Ref → Ref → Prop} {c : Cell} {v : Scalar} (h : Agrees R c (.scalar v)) :
    c = .scalar v := by
  cases h
  rfl

theorem Cell.Agrees.eq_list {R : Ref → Ref → Prop} {c : Cell} {items' : List Ref} (h : Agrees R c (.list items')) :
    ∃ items, c = .list items ∧ List.Forall₂ R items items' := by
  cases h with
  | list h => exact ⟨_, rfl, h⟩

theorem Cell.Agrees.eq_mapping {R : Ref → Ref → Prop} {c : Cell} {entries' : List (Ref × Ref)}
    (h : Agrees R c (.mapping entries')) :
    ∃ entries, c = .mapping entries ∧ List.Forall₂ (fun e e' => R e.1 e'.1 ∧ R e.2 e'.2) entries entries' := by
  cases h with
  | mapping h => exact ⟨_, rfl, h⟩

/-- Two documents agree: some relation holds of their roots, and of the parts of all cells that it relates. --/
def Document.Agrees (d d' : Document) : Prop :=
  ∃ R : Ref → Ref → Prop, R d.root d'.root ∧ ∀ r s, R r s → Cell.Agrees R (d.cells.get r) (d'.cells.get s)

end Retag

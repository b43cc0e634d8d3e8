import Retag.Proofs.Document.Agrees
import Retag.Proofs.Markup.Shows

/-! Documents that mirror each other. They agree, and every cell that keeps its identity goes with a single cell; then the
    same cells are met again in both, and the same outline is drawn for them. -/

namespace Retag

open Markup

/-! ### Cells that agree -/

namespace Cell.Agrees

variable {R : Ref → Ref → Prop} {c c' : Cell}

theorem keepsIdentity_eq (h : Agrees R c c') : keepsIdentity c = keepsIdentity c' := by
  cases h <;> rfl

theorem kind_isSome_eq (h : Agrees R c c') : c.kind?.isSome = c'.kind?.isSome := by
  cases h <;> rfl

theorem parts (h : Agrees R c c') : List.Forall₂ R (Markup.parts c) (Markup.parts c') := by
  cases h with
  | scalar v => exact .nil
  | list h => exact h
  | pair ha hb => exact .cons ha (.cons hb .nil)
  | mapping h =>
    induction h with
    | nil => exact .nil
    | cons he _ ih => exact .cons he.1 (.cons he.2 ih)
  | set h => exact h

/-- What is known of the parts of a cell may be added to what relates them. --/
theorem and_of_parts {P : Ref → Prop} (h : Agrees R c c') (hP : ∀ r ∈ Markup.parts c, P r) :
    Agrees (fun r s => P r ∧ R r s) c c' := by
  have hrow : ∀ {rs ss : List Ref}, List.Forall₂ R rs ss → (∀ r ∈ rs, P r) → List.Forall₂ (fun r s => P r ∧ R r s) rs ss :=
    fun h hP => (List.forall₂_and_left _ _).mpr ⟨hP, h⟩
  cases h with
  | scalar v => exact .scalar v
  | list h => exact .list (hrow h hP)
  | pair ha hb => exact .pair ⟨hP _ List.mem_cons_self, ha⟩ ⟨hP _ (List.mem_cons_of_mem _ List.mem_cons_self), hb⟩
  | mapping h =>
    refine .mapping (forall₂_entries_and h fun e he => ⟨hP _ ?_, hP _ ?_⟩)
    · exact fst_mem_parts he
    · exact snd_mem_parts he
  | set h => exact .set (hrow h hP)

theorem assemble_eq (h : Agrees R c c') (anchor : Option String) (os : List Outline) :
    Outline.assemble anchor c os = Outline.assemble anchor c' os := by
  cases h <;> rfl

end Cell.Agrees

/-- Related cells agree, and a cell that keeps its identity is related to one cell alone. --/
structure Cells.Mirrors (R : Ref → Ref → Prop) (cells cells' : Cells) : Prop where
  agrees : ∀ r s, R r s → Cell.Agrees R (cells.get r) (cells'.get s)
  once : ∀ r s r' s', R r s → R r' s' → keepsIdentity (cells.get r) = true → (r = r' ↔ s = s')

/-- Two documents mirror each other: some relation like this holds of their roots. --/
def Document.Mirrors (d d' : Document) : Prop :=
  ∃ R, R d.root d'.root ∧ Cells.Mirrors R d.cells d'.cells

theorem Document.Mirrors.agrees {d d' : Document} (h : d.Mirrors d') : d.Agrees d' := by
  obtain ⟨R, hroot, hR⟩ := h
  exact ⟨R, hroot, hR.agrees⟩

namespace Markup

variable {R : Ref → Ref → Prop} {cells cells' : Cells} {met met' again again' : List Ref} {r q : Ref}

/-! ### Cells that were met -/

/-- Two rows of cells that keep their identity are related one by one. --/
def Alike (R : Ref → Ref → Prop) (cells : Cells) : List Ref → List Ref → Prop :=
  List.Forall₂ fun r s => R r s ∧ keepsIdentity (cells.get r) = true

theorem Alike.mem_iff (h : Alike R cells met met') (hR : cells.Mirrors R cells') (hr : R r q)
    (hk : keepsIdentity (cells.get r) = true) : r ∈ met ↔ q ∈ met' := by
  induction h with
  | nil => simp
  | cons hs _ ih => rw [List.mem_cons, List.mem_cons, ih, hR.once _ _ _ _ hr hs.1 hk]

/-- Related cells have the same anchor. --/
theorem Alike.anchor?_eq (h : Alike R cells again again') (hR : cells.Mirrors R cells') (hr : R r q)
    (hk : keepsIdentity (cells.get r) = true) : Survey.anchor? again r = Survey.anchor? again' q := by
  have hidx : again.idxOf? r = again'.idxOf? q := by
    induction h with
    | nil => rfl
    | @cons s t _ _ hs _ ih =>
      rw [List.idxOf?_cons, List.idxOf?_cons, ih]
      have hst : s == r ↔ t == q := by
        rw [beq_iff_eq, beq_iff_eq, eq_comm, eq_comm (a := t)]
        exact hR.once _ _ _ _ hr hs.1 hk
      by_cases hsr : s == r
      · rw [if_pos hsr, if_pos (hst.mp hsr)]
      · rw [if_neg hsr, if_neg fun ht => hsr (hst.mpr ht)]
  rw [Survey.anchor?, Survey.anchor?, hidx]

namespace Survey

/-- The cells of a row are surveyed one after the other. --/
theorem alike_foldl {depth depth' : Nat} (ih : ∀ {s s' : Survey} {r q : Ref}, Outline.unmet cells.size s.met < depth →
      Outline.unmet cells'.size s'.met < depth' → R r q → Alike R cells s.met s'.met → Alike R cells s.again s'.again →
        Alike R cells (visit cells depth s r).met (visit cells' depth' s' q).met ∧
          Alike R cells (visit cells depth s r).again (visit cells' depth' s' q).again) {rs qs : List Ref} {s s' : Survey}
    (hrow : List.Forall₂ R rs qs) (hd : Outline.unmet cells.size s.met < depth)
    (hd' : Outline.unmet cells'.size s'.met < depth') (hmet : Alike R cells s.met s'.met)
    (hagain : Alike R cells s.again s'.again) :
    Alike R cells (rs.foldl (visit cells depth) s).met (qs.foldl (visit cells' depth') s').met ∧
      Alike R cells (rs.foldl (visit cells depth) s).again (qs.foldl (visit cells' depth') s').again := by
  induction hrow generalizing s s' with
  | nil => exact ⟨hmet, hagain⟩
  | @cons r q rs qs hr _ ihr =>
    obtain ⟨hmet₁, hagain₁⟩ := ih hd hd' hr hmet hagain
    exact ihr (Nat.lt_of_le_of_lt (Outline.unmet_le (subset_visit depth s r).1) hd)
      (Nat.lt_of_le_of_lt (Outline.unmet_le (subset_visit depth' s' q).1) hd') hmet₁ hagain₁

/-- Surveys of related cells meet related cells. --/
theorem alike_visit (hR : cells.Mirrors R cells') {depth depth' : Nat} {s s' : Survey}
    (hd : Outline.unmet cells.size s.met < depth) (hd' : Outline.unmet cells'.size s'.met < depth') (hr : R r q)
    (hmet : Alike R cells s.met s'.met) (hagain : Alike R cells s.again s'.again) :
    Alike R cells (visit cells depth s r).met (visit cells' depth' s' q).met ∧
      Alike R cells (visit cells depth s r).again (visit cells' depth' s' q).again := by
  induction depth generalizing depth' s s' r q with
  | zero => omega
  | succ depth ih =>
    obtain ⟨depth', rfl⟩ := Nat.exists_eq_add_one_of_ne_zero (Nat.ne_zero_of_lt hd')
    have hagrees := hR.agrees r q hr
    -- Related cells take the same turn, since they agree and were met at the same places.
    have hkeeps := hagrees.keepsIdentity_eq
    cases Outline.turn_of cells s.met r with
    | again hk hmem =>
      rw [visit_of_mem hk hmem, visit_of_mem (hkeeps ▸ hk) ((hmet.mem_iff hR hr hk).mp hmem)]
      have hiff := hagain.mem_iff hR hr hk
      by_cases hin : r ∈ s.again
      · rw [if_pos hin, if_pos (hiff.mp hin)]
        exact ⟨hmet, hagain⟩
      · rw [if_neg hin, if_neg fun h => hin (hiff.mpr h)]
        exact ⟨hmet, forall₂_append hagain (.cons ⟨hr, hk⟩ .nil)⟩
    | @scalar v hc hmem =>
      rw [hc] at hagrees hkeeps
      have hc' : cells'.get q = .scalar v := hagrees.flip.eq_scalar
      have hmem' : keepsIdentity (.scalar v) = true → q ∉ s'.met := fun hk h =>
        hmem hk ((hmet.mem_iff hR hr (by rwa [hc])).mpr h)
      rw [visit_scalar hc hmem, visit_scalar hc' hmem']
      split
      · rename_i hk
        exact ⟨.cons ⟨hr, by rwa [hc]⟩ hmet, hagain⟩
      · exact ⟨hmet, hagain⟩
    | container hc hmem =>
      have hc' : (cells'.get q).kind?.isSome := hagrees.kind_isSome_eq ▸ hc
      have hk := Outline.keepsIdentity_of_kind? hc
      have hmem' : q ∉ s'.met := fun h => hmem ((hmet.mem_iff hR hr hk).mpr h)
      rw [visit_container hc hmem, visit_container hc' hmem']
      have hlt : Outline.unmet cells.size (r :: s.met) < depth := by
        have := Outline.unmet_cons_lt (Cells.lt_size_of_kind? hc) hmem
        omega
      have hlt' : Outline.unmet cells'.size (q :: s'.met) < depth' := by
        have := Outline.unmet_cons_lt (Cells.lt_size_of_kind? hc') hmem'
        omega
      exact alike_foldl ih hagrees.parts hlt hlt' (.cons ⟨hr, hk⟩ hmet) hagain

end Survey

namespace Outline

/-- The cells of a row are drawn one after the other. --/
theorem drawAll_of_mirrors {depth depth' : Nat} (ih : ∀ {met met' m' : List Ref} {r q : Ref} {o : Outline},
      unmet cells.size met < depth → unmet cells'.size met' < depth' → R r q → Alike R cells met met' →
        draw cells' again' depth' met' q = .ok (o, m') →
          ∃ m, draw cells again depth met r = .ok (o, m) ∧ Alike R cells m m') {rs qs m' : List Ref} {os : List Outline}
    (hrow : List.Forall₂ R rs qs) (hd : unmet cells.size met < depth) (hd' : unmet cells'.size met' < depth')
    (hmet : Alike R cells met met') (hdraw : drawAll (draw cells' again' depth') met' qs = .ok (os, m')) :
    ∃ m, drawAll (draw cells again depth) met rs = .ok (os, m) ∧ Alike R cells m m' := by
  induction hrow generalizing met met' os with
  | nil =>
    cases hdraw
    exact ⟨met, rfl, hmet⟩
  | @cons r q rs qs hr _ ihr =>
    simp only [drawAll, bind_eq_ok, pure_eq_ok, Except.ok.injEq, Prod.mk.injEq] at hdraw
    obtain ⟨⟨o₁, m₂'⟩, hq, ⟨os₁, m₃'⟩, hqs, rfl, rfl⟩ := hdraw
    obtain ⟨m₂, hdraw₂, hm₂⟩ := ih hd hd' hr hmet hq
    obtain ⟨m₃, hdraw₃, hm₃⟩ := ihr (Nat.lt_of_le_of_lt (unmet_le (extends_of_draw hdraw₂ hd).1.subset) hd)
      (Nat.lt_of_le_of_lt (unmet_le (extends_of_draw hq hd').1.subset) hd') hm₂ hqs
    exact ⟨m₃, by simp only [drawAll, hdraw₂, ok_bind, hdraw₃, pure_eq_ok], hm₃⟩

/-- What is drawn for a cell is drawn for a related one. --/
theorem draw_of_mirrors (hR : cells.Mirrors R cells') (hagain : Alike R cells again again') {depth depth' : Nat}
    {o : Outline} {m' : List Ref} (hd : unmet cells.size met < depth) (hd' : unmet cells'.size met' < depth')
    (hr : R r q) (hmet : Alike R cells met met') (hdraw : draw cells' again' depth' met' q = .ok (o, m')) :
    ∃ m, draw cells again depth met r = .ok (o, m) ∧ Alike R cells m m' := by
  induction depth generalizing depth' met met' r q o m' with
  | zero => omega
  | succ depth ih =>
    obtain ⟨depth', rfl⟩ := Nat.exists_eq_add_one_of_ne_zero (Nat.ne_zero_of_lt hd')
    have hagrees := hR.agrees r q hr
    have hkeeps := hagrees.keepsIdentity_eq
    -- What was met stays alike on both sides, so the cells on both sides take the same turn.
    cases turn_of cells met r with
    | again hk hmem =>
      rw [draw_of_mem (hkeeps ▸ hk) ((hmet.mem_iff hR hr hk).mp hmem)] at hdraw
      cases hdraw
      exact ⟨met, by rw [draw_of_mem hk hmem, hagain.anchor?_eq hR hr hk], hmet⟩
    | @scalar v hc hmem =>
      rw [hc] at hagrees hkeeps
      have hc' : cells'.get q = .scalar v := hagrees.flip.eq_scalar
      have hmem' : keepsIdentity (.scalar v) = true → q ∉ met' := fun hk h =>
        hmem hk ((hmet.mem_iff hR hr (by rwa [hc])).mpr h)
      rw [draw_scalar hc' hmem'] at hdraw
      rw [draw_scalar hc hmem]
      cases hf : scalarForm v with
      | error why => simp [hf] at hdraw
      | ok f =>
        simp only [hf, map_ok, Except.ok.injEq, Prod.mk.injEq] at hdraw ⊢
        obtain ⟨rfl, rfl⟩ := hdraw
        by_cases hk : keepsIdentity (.scalar v) = true
        · simp only [if_pos hk, hagain.anchor?_eq hR hr (by rwa [hc])]
          exact ⟨_, ⟨trivial, rfl⟩, .cons ⟨hr, by rwa [hc]⟩ hmet⟩
        · simp only [if_neg hk]
          exact ⟨_, ⟨trivial, rfl⟩, hmet⟩
    | container hc hmem =>
      have hc' : (cells'.get q).kind?.isSome := hagrees.kind_isSome_eq ▸ hc
      have hk := keepsIdentity_of_kind? hc
      have hmem' : q ∉ met' := fun h => hmem ((hmet.mem_iff hR hr hk).mpr h)
      rw [draw_container hc' hmem'] at hdraw
      rw [draw_container hc hmem]
      have hlt : unmet cells.size (r :: met) < depth := by
        have := unmet_cons_lt (Cells.lt_size_of_kind? hc) hmem
        omega
      have hlt' : unmet cells'.size (q :: met') < depth' := by
        have := unmet_cons_lt (Cells.lt_size_of_kind? hc') hmem'
        omega
      cases hrow : drawAll (draw cells' again' depth') (q :: met') (parts (cells'.get q)) with
      | error why => simp [hrow] at hdraw
      | ok x =>
        obtain ⟨os, m₁'⟩ := x
        simp only [hrow, map_ok, Except.ok.injEq, Prod.mk.injEq] at hdraw
        obtain ⟨rfl, rfl⟩ := hdraw
        obtain ⟨m₁, hdrawn, hm₁⟩ := drawAll_of_mirrors ih hagrees.parts hlt hlt' (.cons ⟨hr, hk⟩ hmet) hrow
        exact ⟨m₁, by rw [hdrawn, map_ok, hagrees.assemble_eq, hagain.anchor?_eq hR hr hk], hm₁⟩

/-- Documents that mirror each other have the same outline. --/
theorem ofDocument_of_mirrors {d d' : Document} {o : Outline} (h : d.Mirrors d') (ho : ofDocument d' = .ok o) :
    ofDocument d = .ok o := by
  obtain ⟨R, hroot, hR⟩ := h
  have hd : unmet d.cells.size [] < d.cells.size + 1 := by
    rw [unmet_nil]
    exact Nat.lt_succ_self _
  have hd' : unmet d'.cells.size [] < d'.cells.size + 1 := by
    rw [unmet_nil]
    exact Nat.lt_succ_self _
  obtain ⟨-, hagain⟩ := @Survey.alike_visit R d.cells d'.cells d.root d'.root hR _ _ {} {} hd hd' hroot .nil .nil
  simp only [ofDocument, bind_eq_ok, pure_eq_ok, Except.ok.injEq] at ho ⊢
  obtain ⟨⟨o', met'⟩, hdraw, rfl⟩ := ho
  obtain ⟨met, hdraw', -⟩ := draw_of_mirrors hR hagain hd hd' hroot .nil hdraw
  exact ⟨_, hdraw', rfl⟩

end Outline

end Markup

end Retag

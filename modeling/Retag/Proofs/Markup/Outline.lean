import Mathlib.Logic.Relation
import Retag.Markup.Outline
import Retag.Proofs.Results

/-! Drawing a document as an outline. A container is drawn by drawing its parts one after the other; every container
    that is met has all its parts drawn, so a document can be drawn exactly if no number that can be reached in it
    is too long. -/

namespace Retag

namespace Cells

/-- One cell is a part of another. --/
def IsPart (cells : Cells) (r s : Ref) : Prop := s ∈ Markup.parts (cells.get r)

/-- A cell can be reached from another by going from wholes to parts. --/
def Reaches (cells : Cells) : Ref → Ref → Prop := Relation.ReflTransGen cells.IsPart

/-- All cells that can be reached from a cell have a property. --/
def All (cells : Cells) (P : Ref → Prop) (r : Ref) : Prop := ∀ s, cells.Reaches r s → P s

/-- A cell is a whole number of too many digits to be written. --/
def IsLong (cells : Cells) (r : Ref) : Prop := ∃ n, cells.get r = .scalar (.int n) ∧ Number.writeInt? n = none

theorem get_of_size_le {cells : Cells} {r : Ref} (h : cells.size ≤ r) : cells.get r = .scalar .null := by
  simp [get, h]

/-- What a name means is one of the cells, or null. --/
theorem get_mem_or_null (cells : Cells) (r : Ref) : cells.get r ∈ cells ∨ cells.get r = .scalar .null := by
  rcases Nat.lt_or_ge r cells.size with hlt | hge
  · rw [get, Array.getElem?_eq_getElem hlt, Option.getD_some]
    exact Or.inl (Array.getElem_mem hlt)
  · exact Or.inr (get_of_size_le hge)

theorem All.self {cells : Cells} {P : Ref → Prop} {r : Ref} (h : cells.All P r) : P r := h r .refl

theorem All.part {cells : Cells} {P : Ref → Prop} {r q : Ref} (h : cells.All P r)
    (hq : q ∈ Markup.parts (cells.get r)) : cells.All P q :=
  fun s hs => h s (.head hq hs)

theorem all_of_size_le {cells : Cells} {P : Ref → Prop} {r : Ref} (hr : cells.size ≤ r) (h : P r) :
    cells.All P r := by
  intro s hs
  rcases Relation.ReflTransGen.cases_head hs with rfl | ⟨q, hq, -⟩
  · exact h
  · rw [IsPart, get_of_size_le hr] at hq
    cases hq

theorem lt_size_of_kind? {cells : Cells} {r : Ref} (h : (cells.get r).kind?.isSome) : r < cells.size := by
  rcases Nat.lt_or_ge r cells.size with hlt | hge
  · exact hlt
  · rw [get_of_size_le hge] at h
    cases h

end Cells

namespace Document

/-- A whole number of too many digits to be written can be reached in the document. --/
def HoldsLongNumber (d : Document) : Prop := ∃ r, d.cells.Reaches d.root r ∧ d.cells.IsLong r

end Document

namespace Markup

/-! ### Parts -/

theorem fst_mem_parts {α : Type} {entries : List (α × α)} {e : α × α} (he : e ∈ entries) :
    e.1 ∈ entries.flatMap fun e => [e.1, e.2] :=
  List.mem_flatMap.mpr ⟨e, he, List.mem_cons_self⟩

theorem snd_mem_parts {α : Type} {entries : List (α × α)} {e : α × α} (he : e ∈ entries) :
    e.2 ∈ entries.flatMap fun e => [e.1, e.2] :=
  List.mem_flatMap.mpr ⟨e, he, List.mem_cons_of_mem _ List.mem_cons_self⟩

/-! ### Whole numbers -/

theorem scalarForm_of_writeInt?_eq_none {n : Int} (h : Number.writeInt? n = none) :
    scalarForm (.int n) = .error .longNumber := by
  unfold scalarForm
  simp only
  rw [h]

theorem scalarForm_of_writeInt?_eq_some {n : Int} {s : String} (h : Number.writeInt? n = some s) :
    scalarForm (.int n) = .ok (.int, s, false) := by
  unfold scalarForm
  simp only
  rw [h]

theorem scalarForm_int_eq_ok {n : Int} {f : Tag × Text.Wobbly × Bool} (h : scalarForm (.int n) = .ok f) :
    ∃ s : String, Number.writeInt? n = some s ∧ f = (.int, .whole s, false) := by
  rcases Option.eq_none_or_eq_some (Number.writeInt? n) with hw | ⟨s, hw⟩
  · rw [scalarForm_of_writeInt?_eq_none hw] at h
    cases h
  · rw [scalarForm_of_writeInt?_eq_some hw] at h
    cases h
    exact ⟨s, hw, rfl⟩

namespace Outline

variable {cells : Cells} {again met met' : List Ref} {r : Ref} {o : Outline} {depth : Nat}

/-! ### One cell -/

/-- Puts outlines into pairs, two and two. --/
def pairUp : List Outline → List (Outline × Outline)
  | k :: v :: rest => (k, v) :: pairUp rest
  | _ => []

/-- The outline of a container, given the outlines of its parts. --/
def assemble (anchor : Option String) (c : Cell) (os : List Outline) : Outline :=
  match c with
  | .scalar _ => .alias ""
  | .list _ | .pair .. => .seq anchor os
  | .mapping _ => .map anchor .map (pairUp os)
  | .set _ => .map anchor .set (os.map member)

theorem drawEntries_eq (draw : List Ref → Ref → Except Breakdown (Outline × List Ref)) (met : List Ref)
    (entries : List (Ref × Ref)) :
    drawEntries draw met entries =
      (drawAll draw met (entries.flatMap fun e => [e.1, e.2])).map fun x => (pairUp x.1, x.2) := by
  induction entries generalizing met with
  | nil => rfl
  | cons e rest ih =>
    obtain ⟨k, v⟩ := e
    simp only [drawEntries, List.flatMap_cons, List.cons_append, List.nil_append, drawAll]
    cases draw met k with
    | error why => rfl
    | ok x =>
      simp only [ok_bind]
      cases draw x.2 v with
      | error why => rfl
      | ok y =>
        simp only [ok_bind, ih]
        cases drawAll draw y.2 (rest.flatMap fun e => [e.1, e.2]) with
        | error why => rfl
        | ok z => rfl

theorem keepsIdentity_of_kind? {c : Cell} (h : c.kind?.isSome) : keepsIdentity c = true := by
  cases c with
  | scalar v => cases h
  | list items => rfl
  | pair a b => rfl
  | mapping entries => rfl
  | set members => rfl

/-- A cell that keeps its identity and was met before is drawn as an alias. --/
theorem draw_of_mem (hk : keepsIdentity (cells.get r) = true) (hr : r ∈ met) :
    draw cells again (depth + 1) met r = .ok (.alias ((Survey.anchor? again r).getD ""), met) := by
  simp [draw, hk, hr]

/-- A scalar is drawn by its form. --/
theorem draw_scalar {v : Scalar} (hc : cells.get r = .scalar v)
    (hr : keepsIdentity (.scalar v) = true → r ∉ met) :
    draw cells again (depth + 1) met r = (scalarForm v).map fun f =>
      (.scalar (if keepsIdentity (.scalar v) then Survey.anchor? again r else none) f.1 f.2.1 f.2.2,
        if keepsIdentity (.scalar v) then r :: met else met) := by
  simp only [draw, hc]
  by_cases hk : keepsIdentity (.scalar v) = true
  · simp only [hk, Bool.true_and, List.contains_iff_mem, hr hk, if_false]
    cases scalarForm v <;> rfl
  · simp only [Bool.not_eq_true] at hk
    simp only [hk, Bool.false_and]
    cases scalarForm v <;> rfl

/-- A container that was not met before is drawn by its parts. --/
theorem draw_container (hc : (cells.get r).kind?.isSome) (hr : r ∉ met) :
    draw cells again (depth + 1) met r =
      (drawAll (draw cells again depth) (r :: met) (parts (cells.get r))).map fun x =>
        (assemble (Survey.anchor? again r) (cells.get r) x.1, x.2) := by
  simp only [draw, keepsIdentity_of_kind? hc, Bool.true_and, List.contains_iff_mem, hr, if_false, if_true]
  cases h : cells.get r with
  | scalar v => rw [h] at hc; cases hc
  | list items => cases drawAll (draw cells again depth) (r :: met) items <;> rfl
  | pair a b => cases drawAll (draw cells again depth) (r :: met) [a, b] <;> rfl
  | mapping entries =>
    simp only [drawEntries_eq, parts]
    cases drawAll (draw cells again depth) (r :: met) (entries.flatMap fun e => [e.1, e.2]) <;> rfl
  | set members => cases drawAll (draw cells again depth) (r :: met) members <;> rfl

/-- What drawing meets at a cell: one that was met before, a scalar, or a new container. --/
inductive Turn (cells : Cells) (met : List Ref) (r : Ref) : Prop where
  | again (hk : keepsIdentity (cells.get r) = true) (hr : r ∈ met)
  | scalar {v : Scalar} (hc : cells.get r = .scalar v) (hr : keepsIdentity (.scalar v) = true → r ∉ met)
  | container (hc : (cells.get r).kind?.isSome) (hr : r ∉ met)

theorem turn_of (cells : Cells) (met : List Ref) (r : Ref) : Turn cells met r := by
  by_cases hmet : keepsIdentity (cells.get r) = true ∧ r ∈ met
  · exact .again hmet.1 hmet.2
  · cases h : cells.get r with
    | scalar v => exact .scalar h fun hk hr => hmet ⟨h ▸ hk, hr⟩
    | list items => exact .container (by rw [h]; rfl) fun hr => hmet ⟨by rw [h]; rfl, hr⟩
    | pair a b => exact .container (by rw [h]; rfl) fun hr => hmet ⟨by rw [h]; rfl, hr⟩
    | mapping entries => exact .container (by rw [h]; rfl) fun hr => hmet ⟨by rw [h]; rfl, hr⟩
    | set members => exact .container (by rw [h]; rfl) fun hr => hmet ⟨by rw [h]; rfl, hr⟩

/-! ### The depth is enough -/

/-- How many of a number of names were not met. --/
def unmet (size : Nat) (met : List Nat) : Nat :=
  (List.range size).countP fun r => !met.contains r

theorem unmet_le {size : Nat} (h : met ⊆ met') : unmet size met' ≤ unmet size met := by
  apply List.countP_mono_left
  intro s _ hs
  simp only [Bool.not_eq_true', List.contains_eq_mem, decide_eq_false_iff_not] at hs ⊢
  exact fun hm => hs (h hm)

theorem unmet_cons_lt {size : Nat} (hc : r < size) (hr : r ∉ met) : unmet size (r :: met) < unmet size met := by
  unfold unmet
  rw [List.countP_eq_length_filter, List.countP_eq_length_filter]
  have hsub : (List.range size).filter (fun s => !(r :: met).contains s) =
      ((List.range size).filter fun s => !met.contains s).filter fun s => s != r := by
    rw [List.filter_filter]
    refine List.filter_congr fun s _ => ?_
    by_cases hs : s = r <;> simp [hs]
  rw [hsub]
  refine List.length_filter_lt_length_iff_exists.mpr ⟨r, ?_, by simp⟩
  simp [hc, hr]

theorem unmet_nil {size : Nat} : unmet size [] = size := by
  simp [unmet]

/-! ### What was drawn is complete -/

/-- A cell can be written, and if it is a container it was met. --/
def Settled (cells : Cells) (met : List Ref) (r : Ref) : Prop :=
  ¬cells.IsLong r ∧ ((cells.get r).kind?.isSome → r ∈ met)

theorem Settled.mono (h : Settled cells met r) (hm : met ⊆ met') : Settled cells met' r :=
  ⟨h.1, fun hk => hm (h.2 hk)⟩

/-- From one row of met cells to the next: none is lost, and all parts of the new ones are settled. --/
structure Extends (cells : Cells) (met met' : List Ref) : Prop where
  subset : met ⊆ met'
  parts : ∀ s ∈ met', s ∉ met → ∀ q ∈ parts (cells.get s), Settled cells met' q

theorem Extends.refl (met : List Ref) : Extends cells met met :=
  ⟨fun _ h => h, fun _ hs hn => absurd hs hn⟩

theorem Extends.trans {met'' : List Ref} (h₁ : Extends cells met met') (h₂ : Extends cells met' met'') :
    Extends cells met met'' where
  subset := fun _ hs => h₂.subset (h₁.subset hs)
  parts := fun s hs hn q hq => by
    by_cases hm : s ∈ met'
    · exact (h₁.parts s hm hn q hq).mono h₂.subset
    · exact h₂.parts s hs hm q hq

theorem not_isLong_of_scalarForm {v : Scalar} {f : Tag × Text.Wobbly × Bool} (hc : cells.get r = .scalar v)
    (hf : scalarForm v = .ok f) : ¬cells.IsLong r := by
  rintro ⟨n, hn, hw⟩
  obtain rfl : v = .int n := by simpa [hc] using hn
  rw [scalarForm_of_writeInt?_eq_none hw] at hf
  cases hf

/-- The cells of a row are drawn one after the other, each with what was met before it. --/
theorem extends_of_drawAll (ih : ∀ {met met' : List Ref} {r : Ref} {o : Outline},
      draw cells again depth met r = .ok (o, met') → unmet cells.size met < depth →
        Extends cells met met' ∧ Settled cells met' r) {rs : List Ref} {os : List Outline}
    (h : drawAll (draw cells again depth) met rs = .ok (os, met')) (hd : unmet cells.size met < depth) :
    Extends cells met met' ∧ ∀ q ∈ rs, Settled cells met' q := by
  induction rs generalizing met os with
  | nil =>
    cases h
    exact ⟨.refl _, fun q hq => absurd hq List.not_mem_nil⟩
  | cons q rs ihr =>
    simp only [drawAll, bind_eq_ok, pure_eq_ok, Except.ok.injEq, Prod.mk.injEq] at h
    obtain ⟨⟨o₁, m₁⟩, hq, ⟨os₁, m₂⟩, hrs, -, rfl⟩ := h
    obtain ⟨hext, hset⟩ := ih hq hd
    obtain ⟨hext', hset'⟩ := ihr hrs (Nat.lt_of_le_of_lt (unmet_le hext.subset) hd)
    exact ⟨hext.trans hext', List.forall_mem_cons.mpr ⟨hset.mono hext'.subset, hset'⟩⟩

/-- If a cell can be drawn, it is settled, and so are all parts of the cells that were met by it. --/
theorem extends_of_draw (h : draw cells again depth met r = .ok (o, met')) (hd : unmet cells.size met < depth) :
    Extends cells met met' ∧ Settled cells met' r := by
  induction depth generalizing met met' r o with
  | zero => omega
  | succ depth ih =>
    cases turn_of cells met r with
    | again hk hr =>
      rw [draw_of_mem hk hr] at h
      cases h
      refine ⟨.refl _, ?_, fun _ => hr⟩
      rintro ⟨n, hn, -⟩
      rw [hn] at hk
      cases hk
    | @scalar v hc hr =>
      rw [draw_scalar hc hr] at h
      cases hf : scalarForm v with
      | error why => simp [hf] at h
      | ok f =>
        simp only [hf, map_ok, Except.ok.injEq, Prod.mk.injEq] at h
        obtain ⟨-, rfl⟩ := h
        refine ⟨⟨fun s hs => ?_, fun s hs hn q hq => ?_⟩, not_isLong_of_scalarForm hc hf, fun hk => ?_⟩
        · split
          · exact List.mem_cons_of_mem _ hs
          · exact hs
        · split at hs
          · rcases List.mem_cons.mp hs with rfl | hs
            · rw [hc] at hq
              cases hq
            · exact absurd hs hn
          · exact absurd hs hn
        · rw [hc] at hk
          cases hk
    | container hc hr =>
      rw [draw_container hc hr] at h
      have hlt : unmet cells.size (r :: met) < depth := by
        have := unmet_cons_lt (Cells.lt_size_of_kind? hc) hr
        omega
      cases hrow : drawAll (draw cells again depth) (r :: met) (parts (cells.get r)) with
      | error why => simp [hrow] at h
      | ok x =>
        obtain ⟨os, m⟩ := x
        simp only [hrow, map_ok, Except.ok.injEq, Prod.mk.injEq] at h
        obtain ⟨-, rfl⟩ := h
        obtain ⟨hext, hset⟩ := extends_of_drawAll ih hrow hlt
        refine ⟨⟨fun s hs => hext.subset (List.mem_cons_of_mem _ hs), fun s hs hn q hq => ?_⟩, ?_,
          fun _ => hext.subset List.mem_cons_self⟩
        -- The parts of the container itself are settled by its row, those of other cells by what was met on the way.
        · by_cases hsr : s = r
          · exact hset q (hsr ▸ hq)
          · exact hext.parts s hs (by simp [hsr, hn]) q hq
        · rintro ⟨n, hn, -⟩
          rw [hn] at hc
          cases hc

theorem isLong_of_drawAll_eq_error {why : Breakdown} (ih : ∀ {met : List Ref} {r : Ref},
      draw cells again depth met r = .error why → why = .longNumber ∧ ∃ s, cells.Reaches r s ∧ cells.IsLong s)
    {rs : List Ref} (h : drawAll (draw cells again depth) met rs = .error why) :
    why = .longNumber ∧ ∃ q ∈ rs, ∃ s, cells.Reaches q s ∧ cells.IsLong s := by
  induction rs generalizing met with
  | nil => cases h
  | cons q rs ihr =>
    simp only [drawAll, bind_eq_error] at h
    rcases h with hq | ⟨⟨o₁, m₁⟩, -, hrs | ⟨x, -, hx⟩⟩
    · obtain ⟨hw, s, hs⟩ := ih hq
      exact ⟨hw, q, List.mem_cons_self, s, hs⟩
    · obtain ⟨hw, q', hq', hs⟩ := ihr hrs
      exact ⟨hw, q', List.mem_cons_of_mem _ hq', hs⟩
    · cases hx

/-- Drawing fails only at a number that is too long and can be reached. --/
theorem isLong_of_draw_eq_error {why : Breakdown} (h : draw cells again depth met r = .error why) :
    why = .longNumber ∧ ∃ s, cells.Reaches r s ∧ cells.IsLong s := by
  induction depth generalizing met r with
  | zero => cases h
  | succ depth ih =>
    cases turn_of cells met r with
    | again hk hr =>
      rw [draw_of_mem hk hr] at h
      cases h
    | @scalar v hc hr =>
      rw [draw_scalar hc hr] at h
      cases v with
      | int n =>
        rcases Option.eq_none_or_eq_some (Number.writeInt? n) with hw | ⟨s, hw⟩
        · rw [scalarForm_of_writeInt?_eq_none hw, map_error, Except.error.injEq] at h
          exact ⟨h.symm, r, .refl, n, hc, hw⟩
        · rw [scalarForm_of_writeInt?_eq_some hw, map_ok] at h
          cases h
      | _ => cases h
    | container hc hr =>
      rw [draw_container hc hr] at h
      cases hrow : drawAll (draw cells again depth) (r :: met) (parts (cells.get r)) with
      | ok x => simp [hrow] at h
      | error e =>
        simp only [hrow, map_error, Except.error.injEq] at h
        subst h
        obtain ⟨hw, q, hq, s, hs, hl⟩ := isLong_of_drawAll_eq_error ih hrow
        exact ⟨hw, s, .head hq hs, hl⟩

/-- A document cannot be drawn exactly if a number that is too long can be reached in it. --/
theorem ofDocument_eq_error_iff {d : Document} {why : Breakdown} :
    ofDocument d = .error why ↔ why = .longNumber ∧ d.HoldsLongNumber := by
  unfold ofDocument
  constructor
  · intro h
    simp only [bind_eq_error, pure_eq_ok, reduceCtorEq, and_false, exists_false, or_false] at h
    exact isLong_of_draw_eq_error h
  · rintro ⟨rfl, s, hs, hl⟩
    cases h : draw d.cells (Survey.shared d) (d.cells.size + 1) [] d.root with
    | error why => rw [(isLong_of_draw_eq_error h).1, error_bind]
    | ok x =>
      obtain ⟨o, met⟩ := x
      obtain ⟨hext, hroot⟩ := extends_of_draw h (by rw [unmet_nil]; omega)
      -- Everything that can be reached is settled, since the parts of all cells that were met are.
      have hset : Settled d.cells met s := by
        clear hl
        induction hs with
        | refl => exact hroot
        | @tail q s _ hqs ih =>
          have hq : (d.cells.get q).kind?.isSome := by
            cases hc : d.cells.get q with
            | scalar v =>
              rw [Cells.IsPart, hc] at hqs
              cases hqs
            | _ => rfl
          exact hext.parts q (ih.2 hq) List.not_mem_nil s hqs
      exact absurd hl hset.1

end Outline

end Markup

end Retag

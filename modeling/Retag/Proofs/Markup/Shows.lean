import Retag.Proofs.Number.Digits
import Retag.Proofs.Markup.Outline
import Retag.Proofs.Markup.Tree

/-! What an outline shows. An outline that was drawn for a cell shows that cell, and every alias in it names the cell
    that was drawn under its anchor. From this alone it follows how the outline is read. -/

namespace Retag.Markup

/-! ### Anchors -/

namespace Survey

theorem anchorName_injective : Function.Injective anchorName := by
  intro i j h
  have h' := String.ofList_injective h
  simp only [List.cons.injEq, true_and] at h'
  exact Nat.succ.inj (Number.padded_injective 3 h')

theorem isName_anchorName (i : Nat) : Scanner.IsName (anchorName i).toList := by
  rw [anchorName, String.toList_ofList]
  refine ⟨List.cons_ne_nil _ _, fun x hx => ?_⟩
  simp only [List.mem_cons] at hx
  rcases hx with rfl | rfl | hx
  · decide
  · decide
  · simp [isNameChar, Char.isAlphanum, Number.isDigit_of_mem_padded hx]

theorem anchor?_injective {again : List Ref} {r s : Ref} {a : String} (hr : anchor? again r = some a)
    (hs : anchor? again s = some a) : r = s := by
  obtain ⟨i, hi, rfl⟩ := Option.map_eq_some_iff.mp hr
  obtain ⟨j, hj, hij⟩ := Option.map_eq_some_iff.mp hs
  obtain rfl := anchorName_injective hij
  obtain ⟨h, hri, -⟩ := List.idxOf?_eq_some_iff.mp hi
  obtain ⟨h', hrj, -⟩ := List.idxOf?_eq_some_iff.mp hj
  exact hri.symm.trans hrj

theorem anchor?_isSome_of_mem {again : List Ref} {r : Ref} (h : r ∈ again) : (anchor? again r).isSome := by
  rw [anchor?, Option.isSome_map, List.isSome_idxOf?]
  exact h

end Survey

/-- The cells so far that keep their identity, the last one first, with the anchors that stand for them. --/
abbrev Names := List (Option String × Ref)

namespace Names

/-- The names with a cell that keeps its identity. --/
def add (names : Names) (cells : Cells) (anchor : Option String) (r : Ref) : Names :=
  if keepsIdentity (cells.get r) then (anchor, r) :: names else names

/-- Whether a cell is new if it keeps its identity, and its anchor is one that can be read, and new as well. --/
structure IsNew (names : Names) (cells : Cells) (anchor : Option String) (r : Ref) : Prop where
  name : ∀ a, anchor = some a → Scanner.IsName a.toList ∧ names.lookup (some a) = none
  keeps : anchor.isSome → keepsIdentity (cells.get r) = true
  cell : keepsIdentity (cells.get r) = true → r ∉ names.map Prod.snd

def anchors (names : Names) : List String :=
  names.filterMap Prod.fst

theorem mem_add {names : Names} {cells : Cells} {anchor : Option String} {r s : Ref} (hs : s ∈ names.map Prod.snd) :
    s ∈ (names.add cells anchor r).map Prod.snd := by
  unfold add
  split
  · exact List.mem_cons_of_mem _ hs
  · exact hs

theorem isNew_none {names : Names} {cells : Cells} {r : Ref} (h : keepsIdentity (cells.get r) = false) :
    names.IsNew cells none r :=
  ⟨nofun, nofun, fun hk => by rw [h] at hk; cases hk⟩

theorem mem_of_lookup {names : Names} {a : Option String} {r : Ref} (h : names.lookup a = some r) : (a, r) ∈ names := by
  obtain ⟨l₁, l₂, rfl, -⟩ := List.lookup_eq_some_iff.mp h
  exact List.mem_append_right _ List.mem_cons_self

theorem IsNew.anchors_add {names : Names} {cells : Cells} {anchor : Option String} {r : Ref}
    (h : names.IsNew cells anchor r) : (names.add cells anchor r).anchors = anchor.toList ++ names.anchors := by
  unfold add
  split
  · cases anchor <;> rfl
  · rename_i hk
    cases anchor with
    | none => rfl
    | some a => exact absurd (h.keeps rfl) hk

end Names

/-! ### What an outline shows -/

mutual

/-- An outline shows a cell, given the anchors before it; behind it there may be more. --/
inductive Shows (cells : Cells) : Names → Outline → Ref → Names → Prop
  | named {names : Names} {name : String} {r : Ref} (hname : Scanner.IsName name.toList)
      (hr : names.lookup (some name) = some r) : Shows cells names (.alias name) r names
  | scalar {names : Names} {anchor : Option String} {tag : Tag} {text : Text.Wobbly} {literal : Bool} {r : Ref}
      {v : Scalar} (hc : cells.get r = .scalar v) (hform : scalarForm v = .ok (tag, text, literal))
      (hnew : names.IsNew cells anchor r) : Shows cells names (.scalar anchor tag text literal) r (names.add cells anchor r)
  | list {names names' : Names} {anchor : Option String} {r : Ref} {os : List Outline} {items : List Ref}
      (hc : cells.get r = .list items) (hnew : names.IsNew cells anchor r)
      (hitems : ShowsAll cells (names.add cells anchor r) os items names') : Shows cells names (.seq anchor os) r names'
  | mapping {names names' : Names} {anchor : Option String} {r : Ref} {os : List (Outline × Outline)}
      {entries : List (Ref × Ref)} (hc : cells.get r = .mapping entries) (hnew : names.IsNew cells anchor r)
      (hentries : ShowsEntries cells (names.add cells anchor r) os entries names') :
      Shows cells names (.map anchor .map os) r names'
  | set {names names' : Names} {anchor : Option String} {r : Ref} {os : List (Outline × Outline)}
      {members : List Ref} (hc : cells.get r = .set members) (hnew : names.IsNew cells anchor r)
      (hmembers : ShowsEntries cells (names.add cells anchor r) os (members.map fun m => (m, cells.size)) names') :
      Shows cells names (.map anchor .set os) r names'

inductive ShowsAll (cells : Cells) : Names → List Outline → List Ref → Names → Prop
  | nil {names : Names} : ShowsAll cells names [] [] names
  | cons {names names' names'' : Names} {o : Outline} {os : List Outline} {r : Ref} {rs : List Ref}
      (h : Shows cells names o r names') (hs : ShowsAll cells names' os rs names'') :
      ShowsAll cells names (o :: os) (r :: rs) names''

/-- Outlines show the entries of a mapping, or the members of a set with a name that has no cell for what is missing
    there. --/
inductive ShowsEntries (cells : Cells) : Names → List (Outline × Outline) → List (Ref × Ref) → Names → Prop
  | nil {names : Names} : ShowsEntries cells names [] [] names
  | cons {names names₁ names₂ names₃ : Names} {k v : Outline} {os : List (Outline × Outline)} {r s : Ref}
      {entries : List (Ref × Ref)} (hk : Shows cells names k r names₁) (hv : Shows cells names₁ v s names₂)
      (hs : ShowsEntries cells names₂ os entries names₃) :
      ShowsEntries cells names ((k, v) :: os) ((r, s) :: entries) names₃

end

variable {cells : Cells} {names names' : Names} {again ag met met' : List Ref} {r : Ref} {o : Outline}
  {os : List Outline} {depth : Nat}

theorem ShowsAll.pairUp : (entries : List (Ref × Ref)) → {names names' : Names} → {os : List Outline} →
    ShowsAll cells names os (entries.flatMap fun e => [e.1, e.2]) names' →
    ShowsEntries cells names (Outline.pairUp os) entries names'
  | [], _, _, _, h => by
    cases h
    exact .nil
  | (k, v) :: entries, _, _, _, h => by
    rw [List.flatMap_cons, List.cons_append, List.cons_append, List.nil_append] at h
    obtain _ | ⟨hk, h⟩ := h
    obtain _ | ⟨hv, h⟩ := h
    exact .cons hk hv (ShowsAll.pairUp entries h)

theorem ShowsAll.member : {names names' : Names} → {os : List Outline} → (members : List Ref) →
    ShowsAll cells names os members names' →
    ShowsEntries cells names (os.map Outline.member) (members.map fun m => (m, cells.size)) names'
  | _, _, _, [], h => by
    cases h
    exact .nil
  | _, _, _, m :: members, h => by
    obtain _ | ⟨hm, h⟩ := h
    have hc : cells.get cells.size = .scalar .null := Cells.get_of_size_le (Nat.le_refl _)
    have hk : keepsIdentity (cells.get cells.size) = false := by rw [hc]; rfl
    refine .cons hm ?_ (ShowsAll.member members h)
    have hnull : ∀ {names : Names}, Shows cells names (.scalar none .null "null" false) cells.size
        (names.add cells none cells.size) := .scalar hc rfl (Names.isNew_none hk)
    unfold Names.add at hnull
    rw [hk] at hnull
    exact hnull

/-! ### Drawing -/

/-- The names of the cells that were met. --/
def Names.ofMet (again met : List Ref) : Names :=
  met.map fun r => (Survey.anchor? again r, r)

theorem Names.map_ofMet (again met : List Ref) : (Names.ofMet again met).map Prod.snd = met := by
  rw [ofMet, List.map_map]
  exact List.map_id met

theorem Names.lookup_ofMet {a : String} (ha : Survey.anchor? again r = some a) :
    (Names.ofMet again met).lookup (some a) = if r ∈ met then some r else none := by
  induction met with
  | nil => rfl
  | cons q met ih =>
    rw [ofMet, List.map_cons, List.lookup_cons]
    by_cases hq : Survey.anchor? again q = some a
    · obtain rfl := Survey.anchor?_injective ha hq
      simp [ha]
    · have hne : r ≠ q := by
        rintro rfl
        exact hq ha
      have hb : (some a == Survey.anchor? again q) = false := beq_eq_false_iff_ne.mpr (Ne.symm hq)
      rw [hb]
      simpa [ofMet, hne] using ih

theorem Names.isNew_ofMet (hk : keepsIdentity (cells.get r) = true) (hr : r ∉ met) :
    (Names.ofMet again met).IsNew cells (Survey.anchor? again r) r := by
  refine ⟨fun a ha => ⟨?_, ?_⟩, fun _ => hk, fun _ => ?_⟩
  · obtain ⟨i, -, rfl⟩ := Option.map_eq_some_iff.mp ha
    exact Survey.isName_anchorName i
  · rw [Names.lookup_ofMet ha, if_neg hr]
  · rwa [Names.map_ofMet]

theorem Names.add_ofMet (hk : keepsIdentity (cells.get r) = true) :
    (Names.ofMet again met).add cells (Survey.anchor? again r) r = Names.ofMet again (r :: met) := by
  simp [add, hk, ofMet]

namespace Survey

variable {s : Survey}

theorem subset_visit (depth : Nat) : ∀ (s : Survey) (r : Ref),
    s.met ⊆ (visit cells depth s r).met ∧ s.again ⊆ (visit cells depth s r).again := by
  induction depth with
  | zero => exact fun s r => ⟨List.Subset.refl _, List.Subset.refl _⟩
  | succ depth ih =>
    intro s r
    simp only [visit]
    split
    · exact ⟨List.Subset.refl _, List.Subset.refl _⟩
    · split
      · split
        · exact ⟨List.Subset.refl _, List.Subset.refl _⟩
        · exact ⟨List.Subset.refl _, List.subset_append_left _ _⟩
      · have row : ∀ (rs : List Ref) (s : Survey), s.met ⊆ (rs.foldl (visit cells depth) s).met ∧
            s.again ⊆ (rs.foldl (visit cells depth) s).again := by
          intro rs
          induction rs with
          | nil => exact fun s => ⟨List.Subset.refl _, List.Subset.refl _⟩
          | cons q rs ihr =>
            exact fun s => ⟨List.Subset.trans (ih s q).1 (ihr _).1, List.Subset.trans (ih s q).2 (ihr _).2⟩
        obtain ⟨hmet, hagain⟩ := row (parts (cells.get r)) { s with met := r :: s.met }
        exact ⟨List.Subset.trans (List.subset_cons_self _ _) hmet, hagain⟩

theorem again_subset_foldl (rs : List Ref) (s : Survey) : s.again ⊆ (rs.foldl (visit cells depth) s).again := by
  induction rs generalizing s with
  | nil => exact List.Subset.refl _
  | cons q rs ih => exact List.Subset.trans (subset_visit depth s q).2 (ih _)

/-- A cell that is met again is noted once. --/
theorem visit_of_mem (hk : keepsIdentity (cells.get r) = true) (hr : r ∈ s.met) :
    visit cells (depth + 1) s r = if r ∈ s.again then s else { s with again := s.again ++ [r] } := by
  simp only [visit, hk, Bool.not_true, Bool.false_eq_true, if_false, List.contains_iff_mem, hr, if_true]

theorem met_visit_of_mem (hk : keepsIdentity (cells.get r) = true) (hr : r ∈ s.met) :
    (visit cells (depth + 1) s r).met = s.met ∧ r ∈ (visit cells (depth + 1) s r).again := by
  rw [visit_of_mem hk hr]
  split
  · rename_i h
    exact ⟨rfl, h⟩
  · exact ⟨rfl, List.mem_append_right _ List.mem_cons_self⟩

theorem visit_scalar {v : Scalar} (hc : cells.get r = .scalar v) (hr : keepsIdentity (.scalar v) = true → r ∉ s.met) :
    visit cells (depth + 1) s r = if keepsIdentity (.scalar v) then { s with met := r :: s.met } else s := by
  by_cases hk : keepsIdentity (.scalar v) = true
  · simp [visit, hc, hk, hr hk, parts]
  · simp only [Bool.not_eq_true] at hk
    simp [visit, hc, hk]

theorem visit_container (hc : (cells.get r).kind?.isSome) (hr : r ∉ s.met) :
    visit cells (depth + 1) s r =
      (parts (cells.get r)).foldl (visit cells depth) { s with met := r :: s.met } := by
  simp [visit, Outline.keepsIdentity_of_kind? hc, hr]

end Survey

/-- A cell is no pair. --/
def IsNoPair (cells : Cells) (r : Ref) : Prop :=
  ∀ a b, cells.get r ≠ .pair a b

namespace Outline

/-- What is assembled for a container shows it. --/
theorem shows_assemble {c : Cell} (hc : cells.get r = c) (hkind : c.kind?.isSome) (hpair : ∀ a b, c ≠ .pair a b)
    {anchor : Option String} (hnew : names.IsNew cells anchor r)
    (hparts : ShowsAll cells (names.add cells anchor r) os (parts c) names') :
    Shows cells names (assemble anchor c os) r names' := by
  cases c with
  | scalar v => cases hkind
  | list items => exact .list hc hnew hparts
  | pair a b => exact absurd rfl (hpair a b)
  | mapping entries => exact .mapping hc hnew (ShowsAll.pairUp entries hparts)
  | set members => exact .set hc hnew (ShowsAll.member members hparts)

/-- The cells of a row are drawn and surveyed one after the other. --/
theorem shows_of_drawAll (ih : ∀ {ag met met' : List Ref} {r : Ref} {o : Outline},
      draw cells again depth met r = .ok (o, met') → unmet cells.size met < depth →
        (Survey.visit cells depth ⟨met, ag⟩ r).again ⊆ again → cells.All (IsNoPair cells) r →
          (Survey.visit cells depth ⟨met, ag⟩ r).met = met' ∧ Shows cells (.ofMet again met) o r (.ofMet again met'))
    {rs : List Ref} {os : List Outline} (h : drawAll (draw cells again depth) met rs = .ok (os, met'))
    (hd : unmet cells.size met < depth) (hagain : (rs.foldl (Survey.visit cells depth) ⟨met, ag⟩).again ⊆ again)
    (hpairs : ∀ q ∈ rs, cells.All (IsNoPair cells) q) :
    (rs.foldl (Survey.visit cells depth) ⟨met, ag⟩).met = met' ∧
      ShowsAll cells (.ofMet again met) os rs (.ofMet again met') := by
  induction rs generalizing met ag os with
  | nil =>
    cases h
    exact ⟨rfl, .nil⟩
  | cons q rs ihr =>
    simp only [drawAll, bind_eq_ok, pure_eq_ok, Except.ok.injEq, Prod.mk.injEq] at h
    obtain ⟨⟨o₁, m₁⟩, hq, ⟨os₁, m₂⟩, hrs, rfl, rfl⟩ := h
    obtain ⟨hext, -⟩ := extends_of_draw hq hd
    rw [List.foldl_cons] at hagain ⊢
    obtain ⟨hmet, hshows⟩ := ih hq hd (List.Subset.trans (Survey.again_subset_foldl rs _) hagain)
      (hpairs q List.mem_cons_self)
    have hvisit : Survey.visit cells depth ⟨met, ag⟩ q = ⟨m₁, (Survey.visit cells depth ⟨met, ag⟩ q).again⟩ := by
      rw [← hmet]
    rw [hvisit] at hagain ⊢
    obtain ⟨hmet', hshows'⟩ := ihr hrs (Nat.lt_of_le_of_lt (unmet_le hext.subset) hd) hagain
      fun q' hq' => hpairs q' (List.mem_cons_of_mem _ hq')
    exact ⟨hmet', .cons hshows hshows'⟩

/-- What is drawn for a cell shows it. The survey goes the same way and notes every cell that is met again, so every
    alias has a name. --/
theorem shows_of_draw (hdraw : draw cells again depth met r = .ok (o, met')) (hd : unmet cells.size met < depth)
    (hagain : (Survey.visit cells depth ⟨met, ag⟩ r).again ⊆ again) (hpairs : cells.All (IsNoPair cells) r) :
    (Survey.visit cells depth ⟨met, ag⟩ r).met = met' ∧ Shows cells (.ofMet again met) o r (.ofMet again met') := by
  induction depth generalizing met met' ag r o with
  | zero => omega
  | succ depth ih =>
    cases turn_of cells met r with
    | again hk hr =>
      -- The survey notes the cell as one that is met again, and from this the alias has its name.
      obtain ⟨hmet, hmem⟩ := @Survey.met_visit_of_mem cells r depth ⟨met, ag⟩ hk hr
      rw [draw_of_mem hk hr] at hdraw
      cases hdraw
      obtain ⟨a, ha⟩ := Option.isSome_iff_exists.mp (Survey.anchor?_isSome_of_mem (hagain hmem))
      have hlookup : (Names.ofMet again met).lookup (some a) = some r := by rw [Names.lookup_ofMet ha, if_pos hr]
      refine ⟨hmet, ?_⟩
      rw [ha, Option.getD_some]
      obtain ⟨i, -, rfl⟩ := Option.map_eq_some_iff.mp ha
      exact .named (Survey.isName_anchorName i) hlookup
    | @scalar v hc hr =>
      rw [draw_scalar hc hr] at hdraw
      rw [Survey.visit_scalar hc hr]
      cases hf : scalarForm v with
      | error why => simp [hf] at hdraw
      | ok f =>
        simp only [hf, map_ok, Except.ok.injEq, Prod.mk.injEq] at hdraw
        obtain ⟨rfl, rfl⟩ := hdraw
        by_cases hk : keepsIdentity (.scalar v) = true
        · have hk' : keepsIdentity (cells.get r) = true := by rwa [hc]
          simp only [if_pos hk, ← @Names.add_ofMet cells again met r hk']
          exact ⟨trivial, .scalar hc hf (Names.isNew_ofMet hk' (hr hk))⟩
        · have hk' : keepsIdentity (cells.get r) = false := by rwa [hc, ← Bool.not_eq_true]
          have hshows : Shows cells (.ofMet again met) (.scalar none f.1 f.2.1 f.2.2) r _ :=
            .scalar hc hf (Names.isNew_none hk')
          rw [Names.add, if_neg (by rw [hk']; decide)] at hshows
          simp only [if_neg hk]
          exact ⟨trivial, hshows⟩
    | container hc hr =>
      rw [draw_container hc hr] at hdraw
      rw [Survey.visit_container hc hr] at hagain ⊢
      have hlt : unmet cells.size (r :: met) < depth := by
        have := unmet_cons_lt (Cells.lt_size_of_kind? hc) hr
        omega
      cases hrow : drawAll (draw cells again depth) (r :: met) (parts (cells.get r)) with
      | error why => simp [hrow] at hdraw
      | ok x =>
        obtain ⟨os, m⟩ := x
        simp only [hrow, map_ok, Except.ok.injEq, Prod.mk.injEq] at hdraw
        obtain ⟨rfl, rfl⟩ := hdraw
        obtain ⟨hmet, hshows⟩ := shows_of_drawAll ih hrow hlt hagain fun q hq => hpairs.part hq
        have hk := keepsIdentity_of_kind? hc
        rw [← Names.add_ofMet hk] at hshows
        exact ⟨hmet, shows_assemble rfl hc hpairs.self (Names.isNew_ofMet hk hr) hshows⟩

/-- The outline of a document without pairs shows its root. --/
theorem shows_of_ofDocument {d : Document} (h : ofDocument d = .ok o) (hpairs : d.cells.All (IsNoPair d.cells) d.root) :
    ∃ names, Shows d.cells [] o d.root names := by
  simp only [ofDocument, bind_eq_ok, pure_eq_ok, Except.ok.injEq] at h
  obtain ⟨⟨o', met⟩, hdraw, rfl⟩ := h
  obtain ⟨-, hshows⟩ := @shows_of_draw d.cells (Survey.shared d) [] [] met d.root o' (d.cells.size + 1) hdraw
    (by rw [unmet_nil]; omega) (List.Subset.refl _) hpairs
  exact ⟨_, hshows⟩

end Outline

/-! ### Reading again -/

open Outline

/-- A key is a scalar that can be read again where it stands before its value on one line. --/
def IsClearKey (cells : Cells) (k : Ref) : Prop :=
  ∃ v, cells.get k = .scalar v ∧ ∀ tag text literal, scalarForm v = .ok (tag, text, literal) →
    isSimpleKey (.scalar none tag text literal) = true → IsClearText true tag text literal

/-- What is written for a cell itself can be read again. --/
def IsClearCell (cells : Cells) (r : Ref) : Prop :=
  match cells.get r with
  | .scalar v => ∀ tag text literal, scalarForm v = .ok (tag, text, literal) → IsClearText false tag text literal
  | .mapping entries => ∀ e ∈ entries, IsClearKey cells e.1
  | .set members => ∀ m ∈ members, IsClearKey cells m
  | _ => True

theorem isClearCell_size (cells : Cells) : IsClearCell cells cells.size := by
  rw [IsClearCell, Cells.get_of_size_le (Nat.le_refl _)]
  rintro tag text literal hform
  cases hform
  have hplain : Style.choose .null "null".toList false false = .plain := by decide
  rw [IsClearText, IsClear, hplain]
  decide

/-- The tag of a scalar is that of its kind. --/
theorem tag_of_scalarForm {v : Scalar} {tag : Tag} {text : Text.Wobbly} {literal : Bool}
    (h : scalarForm v = .ok (tag, text, literal)) : tag ∈ [.null, .bool, .int, .float, .str, .binary, .timestamp] := by
  cases v with
  | int n =>
    obtain ⟨s, -, heq⟩ := scalarForm_int_eq_ok h
    cases heq
    decide
  | bool b =>
    cases b <;>
    · cases h
      decide
  | _ =>
    cases h
    decide

theorem ne_other_of_scalarForm {v : Scalar} {tag : Tag} {text : Text.Wobbly} {literal : Bool}
    (h : scalarForm v = .ok (tag, text, literal)) (t : String) : tag ≠ .other t := by
  rintro rfl
  simpa using tag_of_scalarForm h

theorem Names.IsNew.isAnchor {anchor : Option String} (h : names.IsNew cells anchor r) : IsAnchor anchor :=
  fun a ha => (h.name a ha).1

theorem isSimpleKey_scalar {anchor : Option String} {tag : Tag} {text : Text.Wobbly} {literal : Bool}
    (h : isSimpleKey (.scalar anchor tag text literal) = true) :
    isSimpleKey (.scalar none tag text literal) = true := by
  have hshorter : ∀ n, anchorLength anchor + (tagText tag).length + n < 128 →
      anchorLength none + (tagText tag).length + n < 128 := fun n hn => by
    rw [anchorLength, Option.map_none, Option.getD_none]
    omega
  cases text with
  | whole s =>
    simp only [isSimpleKey, Bool.and_eq_true, decide_eq_true_eq] at h ⊢
    exact ⟨⟨hshorter _ h.1.1, h.1.2⟩, h.2⟩
  | torn t =>
    simp only [isSimpleKey, Bool.and_eq_true, decide_eq_true_eq] at h ⊢
    exact ⟨hshorter _ h.1, h.2⟩

theorem Shows.key {k : Outline} (h : Shows cells names k r names') (hk : IsClearKey cells r)
    (hclear : IsClearCell cells r) : isLeaf k = true ∧ IsLegible (isSimpleKey k) k := by
  obtain ⟨v, hv, hkey⟩ := hk
  cases h with
  | named hname hr => exact ⟨rfl, hname⟩
  | @scalar _ anchor tag text literal _ v hc hform hnew =>
    cases hv.symm.trans hc
    refine ⟨rfl, hnew.isAnchor, ne_other_of_scalarForm hform, ?_⟩
    by_cases hsimple : isSimpleKey (.scalar anchor tag text literal) = true
    · rw [hsimple]
      exact hkey _ _ _ hform (isSimpleKey_scalar hsimple)
    · rw [Bool.not_eq_true] at hsimple
      rw [hsimple]
      rw [IsClearCell, hv] at hclear
      exact hclear _ _ _ hform
  | list hc => cases hv.symm.trans hc
  | mapping hc => cases hv.symm.trans hc
  | set hc => cases hv.symm.trans hc

mutual

/-- If all that can be reached from a cell can be read again, so can the outline that shows it. --/
theorem Shows.isLegible : {names names' : Names} → {o : Outline} → {r : Ref} → Shows cells names o r names' →
    cells.All (IsClearCell cells) r → IsLegible false o
  | _, _, _, _, .named hname _, _ => hname
  | _, _, _, r, .scalar hc hform hnew, h => by
    have hclear := h.self
    rw [IsClearCell, hc] at hclear
    exact ⟨hnew.isAnchor, ne_other_of_scalarForm hform, hclear _ _ _ hform⟩
  | _, _, _, r, .list hc hnew hitems, h =>
    ⟨hnew.isAnchor, hitems.areLegible fun q hq => h.part (by rw [hc]; exact hq)⟩
  | _, _, _, r, .mapping hc hnew hentries, h => by
    have hclear := h.self
    rw [IsClearCell, hc] at hclear
    refine ⟨hnew.isAnchor, nofun, hentries.areLegible fun e he => ⟨hclear e he, h.part ?_, h.part ?_⟩⟩
    · rw [hc]
      exact fst_mem_parts he
    · rw [hc]
      exact snd_mem_parts he
  | _, _, _, r, .set hc hnew hmembers, h => by
    have hclear := h.self
    rw [IsClearCell, hc] at hclear
    refine ⟨hnew.isAnchor, nofun, hmembers.areLegible fun e he => ?_⟩
    obtain ⟨m, hm, rfl⟩ := List.mem_map.mp he
    exact ⟨hclear m hm, h.part (by rw [hc]; exact hm), Cells.all_of_size_le (Nat.le_refl _) (isClearCell_size cells)⟩

theorem ShowsAll.areLegible : {names names' : Names} → {os : List Outline} → {rs : List Ref} →
    ShowsAll cells names os rs names' → (∀ q ∈ rs, cells.All (IsClearCell cells) q) → AreLegible os
  | _, _, _, _, .nil, _ => trivial
  | _, _, _, _, .cons h hs, hclear =>
    ⟨h.isLegible (hclear _ List.mem_cons_self), hs.areLegible fun q hq => hclear q (List.mem_cons_of_mem _ hq)⟩

theorem ShowsEntries.areLegible : {names names' : Names} → {os : List (Outline × Outline)} →
    {entries : List (Ref × Ref)} → ShowsEntries cells names os entries names' →
    (∀ e ∈ entries, IsClearKey cells e.1 ∧ cells.All (IsClearCell cells) e.1 ∧ cells.All (IsClearCell cells) e.2) →
    EntriesAreLegible os
  | _, _, _, _, .nil, _ => trivial
  | _, _, _, _, .cons hk hv hs, hclear => by
    obtain ⟨hkey, hk', hv'⟩ := hclear _ List.mem_cons_self
    obtain ⟨hleaf, hlegible⟩ := hk.key hkey hk'.self
    exact ⟨hleaf, hlegible, hv.isLegible hv', hs.areLegible fun e he => hclear e (List.mem_cons_of_mem _ he)⟩

end

/-! ### Texts that fit -/

/-- What is written for a cell itself fits wherever it stands: between double quotes it has no anchor, is not too long for
    a simple key and is not folded twice. --/
def FitsAnywhere (cells : Cells) (r : Ref) : Prop :=
  ∀ v tag text literal simple, cells.get r = .scalar v → scalarForm v = .ok (tag, text, literal) →
    IsQuoted simple tag text literal → keepsIdentity (.scalar v) = false ∧
      quotedLength none tag text.points ≤ 1024 ∧ Page.foldsTwice text.points = false

theorem fitsAnywhere_size (cells : Cells) : FitsAnywhere cells cells.size := by
  intro v tag text literal simple hv hform hdouble
  cases (Cells.get_of_size_le (Nat.le_refl _)).symm.trans hv
  cases hform
  rw [IsQuoted] at hdouble
  revert hdouble
  cases simple <;> decide

theorem FitsAnywhere.fitsText {anchor : Option String} {v : Scalar} {tag : Tag} {text : Text.Wobbly} {literal : Bool}
    (h : FitsAnywhere cells r) (hc : cells.get r = .scalar v) (hform : scalarForm v = .ok (tag, text, literal))
    (hnew : names.IsNew cells anchor r) {indent : Option Nat} {place : Place} :
    FitsText indent place anchor tag text literal := by
  intro hdouble
  obtain ⟨hk, hlen, hfold⟩ := h _ _ _ _ _ hc hform hdouble
  split
  · cases anchor with
    | none => exact hlen
    | some a =>
      have := hnew.keeps rfl
      rw [hc, hk] at this
      cases this
  · exact .inr hfold

mutual

/-- If what is written for every cell fits wherever it stands, all texts fit. --/
theorem Shows.fits : {names names' : Names} → {o : Outline} → {r : Ref} → Shows cells names o r names' →
    cells.All (FitsAnywhere cells) r → ∀ {indent : Option Nat} {place : Place} {indenting : Bool},
    Fits indent place indenting o
  | _, _, _, _, .named _ _, _, _, _, _ => trivial
  | _, _, _, _, .scalar hc hform hnew, h, _, _, _ => h.self.fitsText hc hform hnew
  | _, _, _, _, .list hc _ hitems, h, _, _, _ => hitems.fits fun q hq => h.part (by rw [hc]; exact hq)
  | _, _, _, _, .mapping hc _ hentries, h, _, _, _ => hentries.fits fun e he => by
    refine ⟨h.part ?_, h.part ?_⟩
    · rw [hc]
      exact fst_mem_parts he
    · rw [hc]
      exact snd_mem_parts he
  | _, _, _, _, .set hc _ hmembers, h, _, _, _ => hmembers.fits fun e he => by
    obtain ⟨m, hm, rfl⟩ := List.mem_map.mp he
    exact ⟨h.part (by rw [hc]; exact hm), Cells.all_of_size_le (Nat.le_refl _) (fitsAnywhere_size cells)⟩

theorem ShowsAll.fits : {names names' : Names} → {os : List Outline} → {rs : List Ref} →
    ShowsAll cells names os rs names' → (∀ q ∈ rs, cells.All (FitsAnywhere cells) q) → ∀ {n : Nat}, ItemsFit n os
  | _, _, _, _, .nil, _, _ => trivial
  | _, _, _, _, .cons h hs, hrs, _ =>
    ⟨h.fits (hrs _ List.mem_cons_self), hs.fits fun q hq => hrs q (List.mem_cons_of_mem _ hq)⟩

theorem ShowsEntries.fits : {names names' : Names} → {os : List (Outline × Outline)} → {entries : List (Ref × Ref)} →
    ShowsEntries cells names os entries names' →
    (∀ e ∈ entries, cells.All (FitsAnywhere cells) e.1 ∧ cells.All (FitsAnywhere cells) e.2) → ∀ {n : Nat}, EntriesFit n os
  | _, _, _, _, .nil, _, _ => trivial
  | _, _, _, _, .cons hk hv hs, hes, _ =>
    ⟨hk.fits (hes _ List.mem_cons_self).1, hv.fits (hes _ List.mem_cons_self).2,
      hs.fits fun e he => hes e (List.mem_cons_of_mem _ he)⟩

end

/-! ### Anchors are known -/

theorem Names.IsNew.defining {anchor : Option String} (h : names.IsNew cells anchor r) :
    defining names.anchors anchor = some (names.add cells anchor r).anchors := by
  rw [h.anchors_add]
  cases anchor with
  | none => rfl
  | some a =>
    have hnew : ¬a ∈ names.anchors := by
      intro ha
      obtain ⟨e, he, hea⟩ := List.mem_filterMap.mp ha
      have := List.lookup_eq_none_iff.mp (h.name _ rfl).2 e he
      simp [hea] at this
    simp [Outline.defining, hnew]

mutual

/-- In an outline that shows a cell every alias names an anchor before it. --/
theorem Shows.scope : {names names' : Names} → {o : Outline} → {r : Ref} → Shows cells names o r names' →
    o.scope names.anchors = some names'.anchors
  | names, _, .alias name, r, .named hname hr => by
    have hmem : name ∈ names.anchors := List.mem_filterMap.mpr ⟨_, Names.mem_of_lookup hr, rfl⟩
    simp [Outline.scope, hmem]
  | _, _, _, r, .scalar hc hform hnew => hnew.defining
  | _, _, _, r, .list hc hnew hitems => by
    rw [Outline.scope, hnew.defining]
    exact hitems.scope
  | _, _, _, r, .mapping hc hnew hentries => by
    rw [Outline.scope, hnew.defining]
    exact hentries.scope
  | _, _, _, r, .set hc hnew hmembers => by
    rw [Outline.scope, hnew.defining]
    exact hmembers.scope

theorem ShowsAll.scope : {names names' : Names} → {os : List Outline} → {rs : List Ref} →
    ShowsAll cells names os rs names' → scopeItems names.anchors os = some names'.anchors
  | _, _, _, _, .nil => rfl
  | _, _, _, _, .cons h hs => by
    rw [scopeItems, h.scope]
    exact hs.scope

theorem ShowsEntries.scope : {names names' : Names} → {os : List (Outline × Outline)} → {entries : List (Ref × Ref)} →
    ShowsEntries cells names os entries names' → scopeEntries names.anchors os = some names'.anchors
  | _, _, _, _, .nil => rfl
  | _, _, _, _, .cons hk hv hs => by
    rw [scopeEntries, hk.scope]
    simp only [Option.bind_eq_bind, Option.bind_some]
    rw [hv.scope]
    exact hs.scope

end

end Retag.Markup

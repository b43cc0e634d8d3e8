import Retag.Proofs.Markup.Shows
import Retag.Markup.Graph

/-! The graph of an outline that shows a cell. Every node of it is a copy of a cell, with the nodes of its parts in
    their places. -/

namespace Retag.Markup

/-! ### Nodes and names -/

namespace Node

/-- The names of the parts of a node. --/
def parts : Node → List Nat
  | .scalar .. => []
  | .seq _ items => items
  | .map _ entries => entries.flatMap fun e => [e.1, e.2]

end Node

namespace Graph

theorem node_push_of_lt {g : Graph} {i : Nat} (h : i < g.size) (x : Node) : node (g.push x) i = g.node i := by
  rw [node, node, Array.getElem?_push_lt h, Array.getElem?_eq_getElem h]

theorem node_setIfInBounds_self {g : Graph} {i : Nat} (h : i < g.size) (x : Node) :
    node (g.setIfInBounds i x) i = x := by
  simp [node, h]

theorem node_setIfInBounds_ne {g : Graph} {i j : Nat} (h : j ≠ i) (x : Node) :
    node (g.setIfInBounds i x) j = g.node j := by
  simp [node, Ne.symm h]

end Graph

/-- A node is a copy of a cell, where every name of a part stands for a cell. --/
def IsCopy (cells : Cells) (ρ : Nat → Ref) (node : Node) (r : Ref) : Prop :=
  match node with
  | .scalar tag text => ∃ v literal, cells.get r = .scalar v ∧ scalarForm v = .ok (tag, text, literal)
  | .seq tag items => tag = .seq ∧ cells.get r = .list (items.map ρ)
  | .map tag entries =>
    (tag = .map ∧ cells.get r = .mapping (entries.map fun e => (ρ e.1, ρ e.2))) ∨
      (tag = .set ∧ cells.get r = .set (entries.map fun e => ρ e.1) ∧ ∀ e ∈ entries, ρ e.2 = cells.size)

theorem IsCopy.congr {cells : Cells} {ρ ρ' : Nat → Ref} {node : Node} {r : Ref} (h : IsCopy cells ρ node r)
    (hρ : ∀ n ∈ node.parts, ρ' n = ρ n) : IsCopy cells ρ' node r := by
  cases node with
  | scalar tag text => exact h
  | seq tag items =>
    refine ⟨h.1, ?_⟩
    have hmap : items.map ρ = items.map ρ' := List.map_congr_left fun n hn => (hρ n hn).symm
    rw [h.2, hmap]
  | map tag entries =>
    have hkey : ∀ e ∈ entries, ρ' e.1 = ρ e.1 := fun e he =>
      hρ _ (fst_mem_parts he)
    have hvalue : ∀ e ∈ entries, ρ' e.2 = ρ e.2 := fun e he =>
      hρ _ (snd_mem_parts he)
    rcases h with ⟨htag, hc⟩ | ⟨htag, hc, hnull⟩
    · refine .inl ⟨htag, hc.trans ?_⟩
      have hmap : entries.map (fun e => (ρ e.1, ρ e.2)) = entries.map fun e => (ρ' e.1, ρ' e.2) :=
        List.map_congr_left fun e he => by rw [hkey e he, hvalue e he]
      rw [hmap]
    · refine .inr ⟨htag, hc.trans ?_, fun e he => by rw [hvalue e he, hnull e he]⟩
      have hmap : entries.map (fun e => ρ e.1) = entries.map fun e => ρ' e.1 :=
        List.map_congr_left fun e he => by rw [hkey e he]
      rw [hmap]

/-- No two nodes of a number of them stand for one cell that keeps its identity. --/
def AreOnce (cells : Cells) (size : Nat) (ρ : Nat → Ref) : Prop :=
  ∀ i < size, ∀ j < size, keepsIdentity (cells.get (ρ i)) = true → ρ i = ρ j → i = j

/-- Every node of a graph is a copy, and all its parts are nodes; a cell that keeps its identity has one copy. --/
structure Graph.Copies (g : Graph) (cells : Cells) (ρ : Nat → Ref) : Prop where
  part : ∀ i < g.size, ∀ j ∈ (g.node i).parts, j < g.size
  copy : ∀ i < g.size, IsCopy cells ρ (g.node i) (ρ i)
  once : AreOnce cells g.size ρ

/-! ### Drawing -/

namespace Drawing

variable {cells : Cells} {d e e' e'' : Drawing} {ρ ρ' ρ'' : Nat → Ref} {names names' : Names} {r : Ref}
  {anchor : Option String} {node : Node}

@[simp] theorem size_reserve : (d.reserve anchor).nodes.size = d.nodes.size + 1 := Array.size_push _

@[simp] theorem size_fill (n : Nat) : (d.fill n node).nodes.size = d.nodes.size := Array.size_setIfInBounds

/-- From one drawing to another all nodes are kept, and the new ones are copies. --/
structure Grows (cells : Cells) (e e' : Drawing) (ρ ρ' : Nat → Ref) : Prop where
  size : e.nodes.size ≤ e'.nodes.size
  node : ∀ i < e.nodes.size, e'.nodes.node i = e.nodes.node i
  ref : ∀ i < e.nodes.size, ρ' i = ρ i
  part : ∀ i, e.nodes.size ≤ i → i < e'.nodes.size → ∀ j ∈ (e'.nodes.node i).parts, j < e'.nodes.size
  copy : ∀ i, e.nodes.size ≤ i → i < e'.nodes.size → IsCopy cells ρ' (e'.nodes.node i) (ρ' i)

theorem Grows.refl : Grows cells e e ρ ρ where
  size := Nat.le_refl _
  node := fun _ _ => rfl
  ref := fun _ _ => rfl
  part := fun i hi hlt => by omega
  copy := fun i hi hlt => by omega

theorem Grows.trans (h : Grows cells e e' ρ ρ') (h' : Grows cells e' e'' ρ' ρ'') : Grows cells e e'' ρ ρ'' where
  size := Nat.le_trans h.size h'.size
  node := fun i hi => (h'.node i (Nat.lt_of_lt_of_le hi h.size)).trans (h.node i hi)
  ref := fun i hi => (h'.ref i (Nat.lt_of_lt_of_le hi h.size)).trans (h.ref i hi)
  part := fun i hi hlt j hj => by
    rcases Nat.lt_or_ge i e'.nodes.size with hi' | hi'
    · rw [h'.node i hi'] at hj
      exact Nat.lt_of_lt_of_le (h.part i hi hi' j hj) h'.size
    · exact h'.part i hi' hlt j hj
  copy := fun i hi hlt => by
    rcases Nat.lt_or_ge i e'.nodes.size with hi' | hi'
    · rw [h'.node i hi', h'.ref i hi']
      exact (h.copy i hi hi').congr fun n hn => h'.ref n (h.part i hi hi' n hn)
    · exact h'.copy i hi' hlt

/-- The anchors of a drawing are those of the names, and stand for nodes; every node whose cell keeps its identity has a
    name of its own. --/
structure Named (cells : Cells) (e : Drawing) (ρ : Nat → Ref) (names : Names) : Prop where
  anchors : e.anchors.map (fun a => (some a.1, ρ a.2)) = names.filter (·.1.isSome)
  lt : ∀ a ∈ e.anchors, a.2 < e.nodes.size
  known : ∀ i < e.nodes.size, keepsIdentity (cells.get (ρ i)) = true → ρ i ∈ names.map Prod.snd
  once : AreOnce cells e.nodes.size ρ

theorem Named.lookup (h : Named cells e ρ names) {a : String} (hr : names.lookup (some a) = some r) :
    ∃ n, e.anchors.lookup a = some n ∧ n < e.nodes.size ∧ ρ n = r := by
  obtain ⟨hanchors, hlt, -, -⟩ := h
  have hfilter : (names.filter (·.1.isSome)).lookup (some a) = some r := by
    obtain ⟨l₁, l₂, rfl, hl⟩ := List.lookup_eq_some_iff.mp hr
    refine List.lookup_eq_some_iff.mpr ⟨l₁.filter (·.1.isSome), l₂.filter (·.1.isSome), by simp, fun e he => ?_⟩
    exact hl e (List.mem_filter.mp he).1
  rw [← hanchors] at hfilter
  clear hanchors
  generalize e.anchors = anchors at hfilter hlt ⊢
  induction anchors with
  | nil => cases hfilter
  | cons b anchors ih =>
    rw [List.map_cons, List.lookup_cons] at hfilter
    rw [List.lookup_cons]
    by_cases hab : a = b.1
    · subst hab
      rw [beq_self_eq_true] at hfilter ⊢
      exact ⟨b.2, rfl, hlt b List.mem_cons_self, Option.some.inj hfilter⟩
    · have hb : (some a == some b.1) = false := beq_eq_false_iff_ne.mpr fun h => hab (Option.some.inj h)
      rw [hb] at hfilter
      rw [beq_eq_false_iff_ne.mpr hab]
      exact ih hfilter fun a ha => hlt a (List.mem_cons_of_mem _ ha)

/-- What the names of nodes stand for when another one is taken for a cell. --/
def pointing (ρ : Nat → Ref) (n : Nat) (r : Ref) : Nat → Ref :=
  fun i => if i = n then r else ρ i

theorem pointing_self (n : Nat) : pointing ρ n r n = r := if_pos rfl

theorem pointing_of_lt {i n : Nat} (h : i < n) : pointing ρ n r i = ρ i := if_neg (Nat.ne_of_lt h)

/-- The nodes with one more are the one and those before it, which are named as before. --/
theorem pointing_cases {i n : Nat} (hi : i < n + 1) : i = n ∨ i < n ∧ pointing ρ n r i = ρ i := by
  rcases Nat.lt_succ_iff_lt_or_eq.mp hi with hi | hi
  · exact .inr ⟨hi, pointing_of_lt hi⟩
  · exact .inl hi

/-- A cell is still drawn once if the new node stands for a cell that no node before it stands for. --/
theorem areOnce_pointing {n : Nat} (h : AreOnce cells n ρ) (hnew : ∀ i < n, keepsIdentity (cells.get r) = true → ρ i ≠ r) :
    AreOnce cells (n + 1) (pointing ρ n r) := by
  intro i hi j hj hk hij
  rcases pointing_cases hi with rfl | ⟨hi, hrefi⟩
  · rcases pointing_cases hj with rfl | ⟨hj, hrefj⟩
    · rfl
    · rw [pointing_self] at hk hij
      exact absurd (hrefj.symm.trans hij.symm) (hnew j hj hk)
  · rw [hrefi] at hk hij
    rcases pointing_cases hj with rfl | ⟨hj, hrefj⟩
    · rw [pointing_self] at hij
      exact absurd hij (hnew i hi (hij ▸ hk))
    · rw [hrefj] at hij
      exact h i hi j hj hk hij

theorem Named.reserve (h : Named cells e ρ names) (hnew : names.IsNew cells anchor r) :
    Named cells (e.reserve anchor) (pointing ρ e.nodes.size r) (names.add cells anchor r) := by
  have hmap : e.anchors.map (fun a => (some a.1, pointing ρ e.nodes.size r a.2)) = names.filter (·.1.isSome) := by
    rw [← h.anchors]
    exact List.map_congr_left fun a ha => by rw [pointing_of_lt (h.lt a ha)]
  have hlt : ∀ a ∈ e.anchors, a.2 < e.nodes.size + 1 := fun a ha => Nat.lt_succ_of_lt (h.lt a ha)
  refine ⟨?_, fun a ha => ?_, fun i hi hk => ?_, ?_⟩
  · cases anchor with
    | none =>
      rw [Drawing.reserve, hmap]
      unfold Names.add
      split <;> rfl
    | some b =>
      rw [Drawing.reserve, List.map_cons, hmap, pointing_self, Names.add, if_pos (hnew.keeps rfl)]
      rfl
  · rw [size_reserve]
    cases anchor with
    | none => exact hlt a ha
    | some b =>
      rcases List.mem_cons.mp ha with rfl | ha
      · exact Nat.lt_succ_self _
      · exact hlt a ha
  · rw [size_reserve] at hi
    rcases pointing_cases hi with rfl | ⟨hi, href⟩
    · rw [pointing_self] at hk ⊢
      rw [Names.add, if_pos hk]
      exact List.mem_cons_self
    · rw [href] at hk ⊢
      exact Names.mem_add (h.known i hi hk)
  · rw [size_reserve]
    exact areOnce_pointing h.once fun m hm hk hmr => hnew.cell hk (hmr ▸ h.known m hm (by rwa [hmr]))

/-- The node that was taken for a cell gets filled once its parts are drawn. --/
theorem Grows.fill (h : Grows cells (e.reserve anchor) e' (pointing ρ e.nodes.size r) ρ')
    (hpart : ∀ j ∈ node.parts, j < e'.nodes.size) (hcopy : IsCopy cells ρ' node r) :
    Grows cells e (e'.fill e.nodes.size node) ρ ρ' ∧ ρ' e.nodes.size = r := by
  have hsize : e.nodes.size + 1 ≤ e'.nodes.size := by simpa using h.size
  have href : ρ' e.nodes.size = r := by rw [h.ref _ (by simp), pointing_self]
  have hfill : (e'.fill e.nodes.size node).nodes.node e.nodes.size = node :=
    Graph.node_setIfInBounds_self (by omega) node
  have hother : ∀ i, i ≠ e.nodes.size → (e'.fill e.nodes.size node).nodes.node i = e'.nodes.node i :=
    fun i hi => Graph.node_setIfInBounds_ne hi node
  refine ⟨⟨?_, fun i hi => ?_, fun i hi => ?_, fun i hi hlt => ?_, fun i hi hlt => ?_⟩, href⟩
  · rw [size_fill]
    omega
  · rw [hother i (by omega), h.node i (by rw [size_reserve]; omega)]
    exact Graph.node_push_of_lt hi _
  · rw [h.ref i (by rw [size_reserve]; omega), pointing_of_lt hi]
  · rw [size_fill] at hlt ⊢
    rcases Nat.eq_or_lt_of_le hi with rfl | hi
    · rwa [hfill]
    · rw [hother i (by omega)]
      exact h.part i (by rw [size_reserve]; omega) hlt
  · rw [size_fill] at hlt
    rcases Nat.eq_or_lt_of_le hi with rfl | hi
    · rwa [hfill, href]
    · rw [hother i (by omega)]
      exact h.copy i (by rw [size_reserve]; omega) hlt

theorem Named.fill {n : Nat} (h : Named cells e ρ names) : Named cells (e.fill n node) ρ names :=
  ⟨h.anchors, fun a ha => by rw [size_fill]; exact h.lt a ha, fun i hi => h.known i (by rwa [size_fill] at hi),
    fun i hi j hj => h.once i (by rwa [size_fill] at hi) j (by rwa [size_fill] at hj)⟩

/-- The keys of entries whose values are all one name. --/
theorem members_of_map {entries : List (Nat × Nat)} {members : List Ref} {s : Ref}
    (h : entries.map (fun e => (ρ e.1, ρ e.2)) = members.map fun m => (m, s)) :
    members = entries.map (fun e => ρ e.1) ∧ ∀ e ∈ entries, ρ e.2 = s := by
  induction entries generalizing members with
  | nil =>
    cases members with
    | nil => exact ⟨rfl, nofun⟩
    | cons m members => cases h
  | cons e entries ih =>
    cases members with
    | nil => cases h
    | cons m members =>
      simp only [List.map_cons, List.cons.injEq, Prod.mk.injEq] at h
      obtain ⟨⟨hm, hs⟩, h⟩ := h
      obtain ⟨hmembers, hall⟩ := ih h
      refine ⟨by rw [hmembers, List.map_cons, hm], fun e' he' => ?_⟩
      rcases List.mem_cons.mp he' with rfl | he'
      · exact hs
      · exact hall e' he'

theorem draw_scalar (tag : Tag) (text : Text.Wobbly) : draw e (.scalar anchor tag text) =
    (e.nodes.size, (e.reserve anchor).fill e.nodes.size (.scalar tag text)) := rfl

theorem draw_seq (tag : Tag) (items : List Tree) : draw e (.seq anchor tag items) =
    (e.nodes.size, (drawItems (e.reserve anchor) items).2.fill e.nodes.size
      (.seq tag (drawItems (e.reserve anchor) items).1)) := rfl

theorem draw_map (tag : Tag) (entries : List (Tree × Tree)) : draw e (.map anchor tag entries) =
    (e.nodes.size, (drawEntries (e.reserve anchor) entries).2.fill e.nodes.size
      (.map tag (drawEntries (e.reserve anchor) entries).1)) := rfl

theorem drawItems_cons (t : Tree) (ts : List Tree) : drawItems e (t :: ts) =
    ((draw e t).1 :: (drawItems (draw e t).2 ts).1, (drawItems (draw e t).2 ts).2) := rfl

theorem drawEntries_cons (k v : Tree) (ts : List (Tree × Tree)) : drawEntries e ((k, v) :: ts) =
    (((draw e k).1, (draw (draw e k).2 v).1) :: (drawEntries (draw (draw e k).2 v).2 ts).1,
      (drawEntries (draw (draw e k).2 v).2 ts).2) := rfl

end Drawing

open Drawing

variable {cells : Cells}

mutual

/-- The tree of an outline that shows a cell is drawn as copies; its node is a copy of the cell. --/
theorem Shows.draw : {names names' : Names} → {o : Outline} → {r : Ref} → Shows cells names o r names' →
    ∀ {e : Drawing} {ρ : Nat → Ref}, Named cells e ρ names → ∃ ρ', Grows cells e (draw e o.tree).2 ρ ρ' ∧
      Named cells (draw e o.tree).2 ρ' names' ∧ (draw e o.tree).1 < (draw e o.tree).2.nodes.size ∧ ρ' (draw e o.tree).1 = r
  | _, _, .alias name, _, .named _ hr, e, ρ, hnamed => by
    obtain ⟨n, hn, hlt, href⟩ := hnamed.lookup hr
    have hdraw : draw e (.alias name) = (n, e) := by rw [Drawing.draw, hn, Option.getD_some]
    rw [Outline.tree, hdraw]
    exact ⟨ρ, .refl, hnamed, hlt, href⟩
  | _, _, .scalar anchor tag text _, r, .scalar hc hform hnew, e, ρ, hnamed => by
    obtain ⟨hgrows, href⟩ :=
      @Grows.fill cells e _ ρ _ r anchor (.scalar tag text) .refl nofun ⟨_, _, hc, hform⟩
    rw [Outline.tree, draw_scalar]
    exact ⟨_, hgrows, (hnamed.reserve hnew).fill, by simp, href⟩
  | _, _, .seq anchor os, r, .list hc hnew hitems, e, ρ, hnamed => by
    obtain ⟨ρ', hgrows, hnamed', hlt, hmap⟩ := hitems.drawItems (hnamed.reserve hnew)
    obtain ⟨hgrows', href⟩ :=
      @Grows.fill cells e _ ρ ρ' r anchor (.seq .seq _) hgrows hlt ⟨rfl, by rw [hc, hmap]⟩
    have hsize := hgrows.size
    rw [size_reserve] at hsize
    rw [Outline.tree, draw_seq]
    exact ⟨ρ', hgrows', hnamed'.fill, by rw [size_fill]; exact hsize, href⟩
  | _, _, .map anchor _ os, r, .mapping hc hnew hentries, e, ρ, hnamed => by
    obtain ⟨ρ', hgrows, hnamed', hlt, hmap⟩ := hentries.drawEntries (hnamed.reserve hnew)
    obtain ⟨hgrows', href⟩ :=
      @Grows.fill cells e _ ρ ρ' r anchor (.map .map _) hgrows hlt (.inl ⟨rfl, by rw [hc, hmap]⟩)
    have hsize := hgrows.size
    rw [size_reserve] at hsize
    rw [Outline.tree, draw_map]
    exact ⟨ρ', hgrows', hnamed'.fill, by rw [size_fill]; exact hsize, href⟩
  | _, _, .map anchor _ os, r, .set hc hnew hmembers, e, ρ, hnamed => by
    obtain ⟨ρ', hgrows, hnamed', hlt, hmap⟩ := hmembers.drawEntries (hnamed.reserve hnew)
    obtain ⟨hgrows', href⟩ := @Grows.fill cells e _ ρ ρ' r anchor (.map .set _) hgrows hlt
      (.inr ⟨rfl, hc.trans (congrArg Cell.set (members_of_map hmap).1), (members_of_map hmap).2⟩)
    have hsize := hgrows.size
    rw [size_reserve] at hsize
    rw [Outline.tree, draw_map]
    exact ⟨ρ', hgrows', hnamed'.fill, by rw [size_fill]; exact hsize, href⟩

theorem ShowsAll.drawItems : {names names' : Names} → {os : List Outline} → {rs : List Ref} →
    ShowsAll cells names os rs names' → ∀ {e : Drawing} {ρ : Nat → Ref}, Named cells e ρ names →
    ∃ ρ', Grows cells e (drawItems e (Outline.trees os)).2 ρ ρ' ∧ Named cells (drawItems e (Outline.trees os)).2 ρ' names' ∧
      (∀ n ∈ (drawItems e (Outline.trees os)).1, n < (drawItems e (Outline.trees os)).2.nodes.size) ∧
      (drawItems e (Outline.trees os)).1.map ρ' = rs
  | _, _, _, _, .nil, e, ρ, hnamed => ⟨ρ, .refl, hnamed, nofun, rfl⟩
  | _, _, _, _, .cons h hs, e, ρ, hnamed => by
    obtain ⟨ρ₁, hgrows₁, hnamed₁, hlt₁, href₁⟩ := h.draw hnamed
    obtain ⟨ρ₂, hgrows₂, hnamed₂, hlt₂, hmap₂⟩ := hs.drawItems hnamed₁
    rw [Outline.trees, drawItems_cons]
    refine ⟨ρ₂, hgrows₁.trans hgrows₂, hnamed₂, fun n hn => ?_, ?_⟩
    · rcases List.mem_cons.mp hn with rfl | hn
      · exact Nat.lt_of_lt_of_le hlt₁ hgrows₂.size
      · exact hlt₂ n hn
    · rw [List.map_cons, hmap₂, hgrows₂.ref _ hlt₁, href₁]

theorem ShowsEntries.drawEntries : {names names' : Names} → {os : List (Outline × Outline)} →
    {entries : List (Ref × Ref)} → ShowsEntries cells names os entries names' → ∀ {e : Drawing} {ρ : Nat → Ref},
    Named cells e ρ names → ∃ ρ', Grows cells e (drawEntries e (Outline.treeEntries os)).2 ρ ρ' ∧
      Named cells (drawEntries e (Outline.treeEntries os)).2 ρ' names' ∧
      (∀ n ∈ (drawEntries e (Outline.treeEntries os)).1.flatMap fun e => [e.1, e.2],
        n < (drawEntries e (Outline.treeEntries os)).2.nodes.size) ∧
      (drawEntries e (Outline.treeEntries os)).1.map (fun e => (ρ' e.1, ρ' e.2)) = entries
  | _, _, _, _, .nil, e, ρ, hnamed => ⟨ρ, .refl, hnamed, nofun, rfl⟩
  | _, _, _, _, .cons hk hv hs, e, ρ, hnamed => by
    obtain ⟨ρ₁, hgrows₁, hnamed₁, hlt₁, href₁⟩ := hk.draw hnamed
    obtain ⟨ρ₂, hgrows₂, hnamed₂, hlt₂, href₂⟩ := hv.draw hnamed₁
    obtain ⟨ρ₃, hgrows₃, hnamed₃, hlt₃, hmap₃⟩ := hs.drawEntries hnamed₂
    rw [Outline.treeEntries, drawEntries_cons]
    refine ⟨ρ₃, hgrows₁.trans (hgrows₂.trans hgrows₃), hnamed₃, fun n hn => ?_, ?_⟩
    · simp only [List.flatMap_cons, List.cons_append, List.nil_append, List.mem_cons] at hn
      rcases hn with rfl | rfl | hn
      · exact Nat.lt_of_lt_of_le hlt₁ (Nat.le_trans hgrows₂.size hgrows₃.size)
      · exact Nat.lt_of_lt_of_le hlt₂ hgrows₃.size
      · exact hlt₃ n hn
    · rw [List.map_cons, hmap₃, hgrows₃.ref _ hlt₂, href₂, hgrows₃.ref _ (Nat.lt_of_lt_of_le hlt₁ hgrows₂.size),
        hgrows₂.ref _ hlt₁, href₁]

end

/-- The graph of an outline that shows a cell consists of copies, and its root is a copy of the cell. --/
theorem Graph.copies_of_shows {names : Names} {o : Outline} {r : Ref} (h : Shows cells [] o r names) :
    ∃ ρ, (ofTree o.tree).1.Copies cells ρ ∧ (ofTree o.tree).2 < (ofTree o.tree).1.size ∧ ρ (ofTree o.tree).2 = r := by
  have hstart : Named cells {} (fun _ => 0) [] := ⟨rfl, nofun, nofun, nofun⟩
  obtain ⟨ρ, hgrows, hnamed, hlt, href⟩ := h.draw hstart
  exact ⟨ρ, ⟨fun i hi => hgrows.part i (Nat.zero_le _) hi, fun i hi => hgrows.copy i (Nat.zero_le _) hi, hnamed.once⟩,
    hlt, href⟩

end Retag.Markup

import Retag.Proofs.Document.Cells
import Retag.Proofs.Markup.Graph
import Retag.Proofs.Markup.Mirror
import Retag.Markup.Document

/-! The document that is built from copies of cells. Every node of the graph gets one cell, which agrees with the cell
    that the node is a copy of as soon as it is filled. -/

namespace Retag

namespace Markup

/-- What is written for a cell itself gives the cell again: a scalar is read back, keys are scalars that differ, and no
    cell is a pair. --/
def IsSoundCell (cells : Cells) (r : Ref) : Prop :=
  match cells.get r with
  | .scalar v => ∀ tag text literal, scalarForm v = .ok (tag, text, literal) → readText tag text = .ok v
  | .list _ => True
  | .pair .. => False
  | .mapping entries =>
    (∀ e ∈ entries, (cells.get e.1).kind? = none) ∧ entries.Pairwise fun e f => cells.IsApart e.1 f.1
  | .set members => (∀ m ∈ members, (cells.get m).kind? = none) ∧ members.Pairwise cells.IsApart

theorem isSoundCell_size (cells : Cells) : IsSoundCell cells cells.size := by
  rw [IsSoundCell, Cells.get_of_size_le (Nat.le_refl _)]
  rintro tag text literal hform
  cases hform
  rfl

variable {g : Graph} {cells : Cells} {ρ : Nat → Ref} {node : Node} {n : Nat} {r : Ref}

/-- The parts of a copy are copies of parts. --/
theorem IsCopy.all_part (h : IsCopy cells ρ node r) (hall : cells.All (IsSoundCell cells) r) {j : Nat}
    (hj : j ∈ node.parts) : cells.All (IsSoundCell cells) (ρ j) := by
  cases node with
  | scalar tag text => cases hj
  | seq tag items => exact hall.part (by rw [h.2]; exact List.mem_map_of_mem hj)
  | map tag entries =>
    obtain ⟨e, he, hj⟩ := List.mem_flatMap.mp hj
    simp only [List.mem_cons, List.not_mem_nil, or_false] at hj
    rcases h with ⟨-, hc⟩ | ⟨-, hc, hnull⟩
    · refine hall.part ?_
      rw [hc]
      refine List.mem_flatMap.mpr ⟨_, List.mem_map_of_mem he, ?_⟩
      rcases hj with rfl | rfl
      · exact List.mem_cons_self
      · exact List.mem_cons_of_mem _ List.mem_cons_self
    · rcases hj with rfl | rfl
      · refine hall.part ?_
        rw [hc]
        exact List.mem_map.mpr ⟨e, he, rfl⟩
      · exact Cells.all_of_size_le (Nat.le_of_eq (hnull e he).symm) (hnull e he ▸ isSoundCell_size cells)

/-- A copy of a scalar is a scalar. --/
theorem IsCopy.scalar (h : IsCopy cells ρ node r) {v : Scalar} (hv : cells.get r = .scalar v) :
    ∃ tag text literal, node = .scalar tag text ∧ scalarForm v = .ok (tag, text, literal) := by
  cases node with
  | scalar tag text =>
    obtain ⟨w, literal, hw, hform⟩ := h
    cases hv.symm.trans hw
    exact ⟨tag, text, literal, rfl, hform⟩
  | seq tag items => cases hv.symm.trans h.2
  | map tag entries =>
    rcases h with ⟨-, hc⟩ | ⟨-, hc, -⟩
    · cases hv.symm.trans hc
    · cases hv.symm.trans hc

/-! ### Merging -/

namespace Graph

/-- Without keys that are merged or stand for a scalar, a mapping stays as it is. --/
theorem flatten_eq (h : ∀ e ∈ g.entries n, (g.node e.1).tag ≠ .merge ∧ (g.node e.1).tag ≠ .value) (fuel : Nat) :
    g.flatten (fuel + 2) n = .ok g := by
  have hmerge : g.takeMerge? n = none := by
    simp only [takeMerge?, Option.map_eq_none_iff, List.find?_eq_none, beq_iff_eq]
    exact fun e he => (h e he).1
  have hplain : g.plainKeys n = g := by
    rw [plainKeys]
    generalize g.entries n = es at h
    induction es with
    | nil => rfl
    | cons e es ih =>
      rw [List.foldl_cons, if_neg (by simpa using (h e List.mem_cons_self).2)]
      exact ih fun e he => h e (List.mem_cons_of_mem _ he)
  rw [flatten, collect, hmerge]
  simp only [ok_bind, hplain]
  rfl

/-- The keys in a graph that is a copy are scalars that were written, so nothing is merged. --/
theorem Copies.flatten_eq (hg : g.Copies cells ρ)
    (h : ∀ e ∈ g.entries n, e.1 < g.size ∧ (cells.get (ρ e.1)).kind? = none) (fuel : Nat) :
    g.flatten (fuel + 2) n = .ok g := by
  refine Graph.flatten_eq (fun e he => ?_) fuel
  obtain ⟨hlt, hkind⟩ := h e he
  obtain ⟨v, hv⟩ := Cell.kind?_eq_none_iff.mp hkind
  obtain ⟨tag, text, literal, hscalar, hform⟩ := (hg.copy e.1 hlt).scalar hv
  rw [hscalar]
  have htag := tag_of_scalarForm hform
  refine ⟨?_, ?_⟩
  · rintro rfl
    simp at htag
  · rintro rfl
    simp at htag

end Graph

namespace Builder

variable {b b' b'' : Builder} {pending ns : List Nat}

/-- A cell that was made for a node stands for the cell that the node is a copy of. --/
def Stands (b : Builder) (ρ : Nat → Ref) (r s : Ref) : Prop :=
  ∃ n, b.made.lookup n = some r ∧ ρ n = s

/-- A builder is on its way to agree with cells; some containers besides the waiting ones are not filled. --/
structure Sound (g : Graph) (cells : Cells) (ρ : Nat → Ref) (pending : List Nat) (b : Builder) : Prop where
  graph : b.graph = g
  node : ∀ n r, b.made.lookup n = some r → n < g.size ∧ r < b.cells.size ∧ cells.All (IsSoundCell cells) (ρ n)
  done : ∀ n r, b.made.lookup n = some r → n ∉ pending ++ b.waiting →
    Cell.Agrees (b.Stands ρ) (b.cells.get r) (cells.get (ρ n))
  waits : ∀ n ∈ pending ++ b.waiting, (cells.get (ρ n)).kind?.isSome ∧
    ∃ r, b.made.lookup n = some r ∧ (b.cells.get r).kind?.isSome
  nodup : (pending ++ b.waiting).Nodup
  unique : ∀ m n r, b.made.lookup m = some r → b.made.lookup n = some r → b.cells.get r ≠ .scalar (.float .nan) → m = n
  nan : ∀ r, b.nan = some r → r < b.cells.size ∧ b.cells.get r = .scalar (.float .nan)

/-- From one builder to another no cell is forgotten, and only new containers come to wait. --/
structure Extends (b b' : Builder) : Prop where
  made : ∀ n r, b.made.lookup n = some r → b'.made.lookup n = some r
  waiting : ∀ n ∈ b'.waiting, n ∈ b.waiting ∨ b.made.lookup n = none

theorem Extends.refl : Extends b b := ⟨fun _ _ h => h, fun _ h => .inl h⟩

theorem Extends.trans (h : Extends b b') (h' : Extends b' b'') : Extends b b'' := by
  refine ⟨fun n r hn => h'.made n r (h.made n r hn), fun n hn => ?_⟩
  rcases h'.waiting n hn with hn | hn
  · exact h.waiting n hn
  · cases hb : b.made.lookup n with
    | none => exact .inr rfl
    | some r => cases hn.symm.trans (h.made n r hb)

theorem Extends.stands (h : Extends b b') {r s : Ref} (hr : b.Stands ρ r s) : b'.Stands ρ r s := by
  obtain ⟨n, hn, hs⟩ := hr
  exact ⟨n, h.made n r hn, hs⟩

theorem lookup_note {made : List (Nat × Ref)} {m n : Nat} {r : Ref} :
    ((m, r) :: made).lookup n = if n = m then some r else made.lookup n := by
  rw [List.lookup_cons]
  by_cases h : n = m
  · simp [h]
  · have hb : (n == m) = false := beq_eq_false_iff_ne.mpr h
    simp only [hb, if_neg h]

/-- The cell that was made for a copy of a scalar is the scalar. --/
theorem Sound.scalar (h : Sound g cells ρ pending b) {v : Scalar} (hn : b.made.lookup n = some r)
    (hv : cells.get (ρ n) = .scalar v) : b.cells.get r = .scalar v := by
  have hnot : n ∉ pending ++ b.waiting := fun hmem => by
    have := (h.waits n hmem).1
    rw [hv] at this
    cases this
  have hagrees := h.done n r hn hnot
  rw [hv] at hagrees
  cases hb : b.cells.get r <;> rw [hb] at hagrees <;> cases hagrees
  rfl

/-! ### One cell -/

/-- One more cell is noted for a node. --/
structure Adds (b b' : Builder) (n : Nat) (r : Ref) : Prop where
  graph : b'.graph = b.graph
  made : b'.made = (n, r) :: b.made
  size : b.cells.size ≤ b'.cells.size
  kept : ∀ s < b.cells.size, b'.cells.get s = b.cells.get s
  lt : r < b'.cells.size
  nan : ∀ s, b'.nan = some s → s < b'.cells.size ∧ b'.cells.get s = .scalar (.float .nan)

theorem Adds.lookup (h : Adds b b' n r) {m : Nat} {s : Ref} (hm : b'.made.lookup m = some s) :
    (m = n ∧ s = r) ∨ (m ≠ n ∧ b.made.lookup m = some s) := by
  rw [h.made, lookup_note] at hm
  split at hm
  · rename_i hmn
    exact .inl ⟨hmn, (Option.some.inj hm).symm⟩
  · rename_i hmn
    exact .inr ⟨hmn, hm⟩

theorem Adds.lookup_self (h : Adds b b' n r) : b'.made.lookup n = some r := by
  rw [h.made, lookup_note, if_pos rfl]

theorem Adds.lookup_of_some (h : Adds b b' n r) (hnew : b.made.lookup n = none) {m : Nat} {s : Ref}
    (hm : b.made.lookup m = some s) : b'.made.lookup m = some s := by
  rw [h.made, lookup_note, if_neg]
  · exact hm
  · rintro rfl
    cases hnew.symm.trans hm

theorem Adds.bound (h : Adds b b' n r) (hb : Sound g cells ρ pending b) (hn : n < g.size)
    (hall : cells.All (IsSoundCell cells) (ρ n)) {m : Nat} {s : Ref} (hm : b'.made.lookup m = some s) :
    m < g.size ∧ s < b'.cells.size ∧ cells.All (IsSoundCell cells) (ρ m) := by
  rcases h.lookup hm with ⟨rfl, rfl⟩ | ⟨-, hm⟩
  · exact ⟨hn, h.lt, hall⟩
  · obtain ⟨hlt, hs, hall⟩ := hb.node m s hm
    exact ⟨hlt, Nat.lt_of_lt_of_le hs h.size, hall⟩

/-- A scalar is noted, which may have been there already. --/
theorem Adds.scalar (h : Adds b b' n r) (hb : Sound g cells ρ pending b) (hnew : b.made.lookup n = none)
    (hn : n < g.size) (hall : cells.All (IsSoundCell cells) (ρ n)) (hwaiting : b'.waiting = b.waiting) {v : Scalar}
    (hv : cells.get (ρ n) = .scalar v) (hr : b'.cells.get r = .scalar v)
    (hfresh : b.cells.size ≤ r ∨ v = .float .nan) : Sound g cells ρ pending b' ∧ Extends b b' := by
  have hext : Extends b b' := ⟨fun m s => h.lookup_of_some hnew, fun m hm => .inl (hwaiting ▸ hm)⟩
  have hother : ∀ m, b.made.lookup m = some r → b'.cells.get r = .scalar (.float .nan) := by
    intro m hm
    rcases hfresh with hfresh | rfl
    · exact absurd (hb.node m r hm).2.1 (Nat.not_lt.mpr hfresh)
    · exact hr
  refine ⟨⟨h.graph.trans hb.graph, fun m s => h.bound hb hn hall, fun m s hm hout => ?_, fun m hm => ?_,
    hwaiting ▸ hb.nodup, fun m k s hm hk hs => ?_, h.nan⟩, hext⟩
  · rcases h.lookup hm with ⟨rfl, rfl⟩ | ⟨-, hm⟩
    · rw [hv, hr]
      exact .scalar v
    · have hagrees := hb.done m s hm (hwaiting ▸ hout)
      rw [h.kept s (hb.node m s hm).2.1]
      exact hagrees.mono fun _ _ => hext.stands
  · obtain ⟨hm, s, hs, hcell⟩ := hb.waits m (hwaiting ▸ hm)
    exact ⟨hm, s, h.lookup_of_some hnew hs, h.kept s (hb.node m s hs).2.1 ▸ hcell⟩
  · rcases h.lookup hm with ⟨rfl, rfl⟩ | ⟨-, hm⟩
    · rcases h.lookup hk with ⟨rfl, -⟩ | ⟨-, hk⟩
      · rfl
      · exact absurd (hother k hk) hs
    · rcases h.lookup hk with ⟨rfl, rfl⟩ | ⟨-, hk⟩
      · exact absurd (hother m hm) hs
      · exact hb.unique m k s hm hk (h.kept s (hb.node m s hm).2.1 ▸ hs)

/-- A new container is noted, and waits. --/
theorem Adds.container (h : Adds b b' n r) (hb : Sound g cells ρ pending b) (hnew : b.made.lookup n = none)
    (hn : n < g.size) (hall : cells.All (IsSoundCell cells) (ρ n)) (hwaiting : b'.waiting = b.waiting ++ [n])
    (hcell : (cells.get (ρ n)).kind?.isSome) (hfresh : b.cells.size ≤ r) (hr : (b'.cells.get r).kind?.isSome) :
    Sound g cells ρ pending b' ∧ Extends b b' := by
  have hext : Extends b b' := by
    refine ⟨fun m s => h.lookup_of_some hnew, fun m hm => ?_⟩
    rw [hwaiting] at hm
    rcases List.mem_append.mp hm with hm | hm
    · exact .inl hm
    · exact .inr (List.mem_singleton.mp hm ▸ hnew)
  -- What waits has a cell already, and this node has none.
  have hnot : n ∉ pending ++ b.waiting := fun hmem => by
    obtain ⟨-, s, hs, -⟩ := hb.waits n hmem
    cases hnew.symm.trans hs
  have hwaits : pending ++ b'.waiting = (pending ++ b.waiting) ++ [n] := by rw [hwaiting, List.append_assoc]
  refine ⟨⟨h.graph.trans hb.graph, fun m s => h.bound hb hn hall, fun m s hm hout => ?_, fun m hm => ?_, ?_,
    fun m k s hm hk hs => ?_, h.nan⟩, hext⟩
  · rw [hwaits] at hout
    rcases h.lookup hm with ⟨rfl, rfl⟩ | ⟨-, hm⟩
    · exact absurd (List.mem_append_right _ List.mem_cons_self) hout
    · have hagrees := hb.done m s hm fun hmem => hout (List.mem_append_left _ hmem)
      rw [h.kept s (hb.node m s hm).2.1]
      exact hagrees.mono fun _ _ => hext.stands
  · rw [hwaits] at hm
    rcases List.mem_append.mp hm with hm | hm
    · obtain ⟨hm, s, hs, hcell⟩ := hb.waits m hm
      exact ⟨hm, s, h.lookup_of_some hnew hs, h.kept s (hb.node m s hs).2.1 ▸ hcell⟩
    · obtain rfl := List.mem_singleton.mp hm
      exact ⟨hcell, r, h.lookup_self, hr⟩
  · rw [hwaits]
    refine List.nodup_append.mpr ⟨hb.nodup, List.nodup_cons.mpr ⟨List.not_mem_nil, .nil⟩, fun m hm k hk => ?_⟩
    rintro rfl
    exact hnot (List.mem_singleton.mp hk ▸ hm)
  · rcases h.lookup hm with ⟨rfl, rfl⟩ | ⟨-, hm⟩
    · rcases h.lookup hk with ⟨rfl, -⟩ | ⟨-, hk⟩
      · rfl
      · exact absurd (hb.node k s hk).2.1 (Nat.not_lt.mpr hfresh)
    · have hlt := (hb.node m s hm).2.1
      rcases h.lookup hk with ⟨rfl, rfl⟩ | ⟨-, hk⟩
      · exact absurd hlt (Nat.not_lt.mpr hfresh)
      · exact hb.unique m k s hm hk (h.kept s hlt ▸ hs)

/-- A cell that is new is noted. --/
theorem Sound.adds (hb : Sound g cells ρ pending b) (b' : Builder) {c : Cell} (hgraph : b'.graph = b.graph)
    (hmade : b'.made = (n, b.cells.size) :: b.made) (hcells : b'.cells = b.cells.push c)
    (hnan : b'.nan = b.nan ∨ (b'.nan = some b.cells.size ∧ c = .scalar (.float .nan))) :
    Adds b b' n b.cells.size ∧ b'.cells.get b.cells.size = c := by
  have hsize : b'.cells.size = b.cells.size + 1 := by rw [hcells, Array.size_push]
  have hself : b'.cells.get b.cells.size = c := by
    rw [hcells]
    exact Cells.get_push_self _ _
  have hkept : ∀ s < b.cells.size, b'.cells.get s = b.cells.get s := by
    rw [hcells]
    exact fun s hs => Cells.get_push_of_lt hs c
  have hlt : b.cells.size < b'.cells.size := hsize ▸ Nat.lt_succ_self _
  refine ⟨⟨hgraph, hmade, Nat.le_of_lt hlt, hkept, hlt, fun s hs => ?_⟩, hself⟩
  rcases hnan with hnan | ⟨hnan, rfl⟩
  · obtain ⟨hs, hget⟩ := hb.nan s (hnan ▸ hs)
    exact ⟨Nat.lt_trans hs hlt, (hkept s hs).trans hget⟩
  · cases hnan.symm.trans hs
    exact ⟨hlt, hself⟩

theorem make_of_some (h : b.made.lookup n = some r) : b.make n = .ok (r, b) := by
  rw [make, h]

/-- A node that is a container is made empty, and waits. --/
theorem make_container (hnew : b.made.lookup n = none) (hcell : (cells.get (ρ n)).kind?.isSome)
    (hcopy : IsCopy cells ρ (b.graph.node n) (ρ n)) : ∃ c : Cell, c.kind?.isSome ∧
      b.make n = .ok (b.cells.size, { (b.add c).2.note n b.cells.size with waiting := b.waiting ++ [n] }) := by
  cases hnode : b.graph.node n with
  | scalar tag text =>
    rw [hnode] at hcopy
    obtain ⟨v, literal, hv, -⟩ := hcopy
    rw [hv] at hcell
    cases hcell
  | seq tag items =>
    rw [hnode] at hcopy
    obtain ⟨rfl, -⟩ := hcopy
    refine ⟨.list [], rfl, ?_⟩
    simp only [make, hnew, hnode, Node.tag]
    rfl
  | map tag entries =>
    rw [hnode] at hcopy
    rcases hcopy with ⟨rfl, -⟩ | ⟨rfl, -⟩
    · refine ⟨.mapping [], rfl, ?_⟩
      simp only [make, hnew, hnode, Node.tag]
      rfl
    · refine ⟨.set [], rfl, ?_⟩
      simp only [make, hnew, hnode, Node.tag]
      rfl

theorem scalarText_eq {tag : Tag} {text : Text.Wobbly} (hnode : g.node n = .scalar tag text) (fuel : Nat) :
    scalarText g (fuel + 1) n = .ok text := by
  rw [scalarText, hnode]

theorem scalar_eq (tag : Tag) (text : Text.Wobbly) : scalar (.scalar tag text) text = readText tag text := by
  cases tag <;> rfl

/-- A node that is a scalar gets a cell for what is read from its text. --/
theorem addScalar_ok (hb : Sound g cells ρ pending b) {tag : Tag} {text : Text.Wobbly} {v : Scalar}
    (hnode : b.graph.node n = .scalar tag text) (hread : readText tag text = .ok v) :
    ∃ r b', b.addScalar n = .ok (r, b') ∧ Adds b (b'.note n r) n r ∧ b'.waiting = b.waiting ∧
      b'.cells.get r = .scalar v ∧ (b.cells.size ≤ r ∨ v = .float .nan) := by
  rw [addScalar, scalarText_eq hnode, ok_bind, hnode, scalar_eq, hread, ok_bind]
  by_cases hword : (v == .float .nan && isNanText text) = true
  · obtain rfl : v = .float .nan := by
      rw [Bool.and_eq_true] at hword
      exact beq_iff_eq.mp hword.1
    rw [hword]
    cases hcell : b.nan with
    | some r =>
      obtain ⟨hlt, hget⟩ := hb.nan r hcell
      exact ⟨r, b, rfl, ⟨rfl, rfl, Nat.le_refl _, fun _ _ => rfl, hlt, hb.nan⟩, rfl, hget, .inr rfl⟩
    | none =>
      obtain ⟨hadds, hget⟩ := hb.adds (n := n)
        { (b.add (.scalar (.float .nan))).2.note n b.cells.size with nan := some b.cells.size } rfl rfl rfl
        (.inr ⟨rfl, rfl⟩)
      exact ⟨_, _, rfl, hadds, rfl, hget, .inl (Nat.le_refl _)⟩
  · rw [Bool.not_eq_true] at hword
    rw [hword]
    obtain ⟨hadds, hget⟩ := hb.adds (n := n) ((b.add (.scalar v)).2.note n b.cells.size) rfl rfl rfl (.inl rfl)
    exact ⟨_, _, rfl, hadds, rfl, hget, .inl (Nat.le_refl _)⟩

theorem addScalar_note (b : Builder) (n : Nat) : (do
    let (r, b) ← b.addScalar n
    return (r, b.note n r)) = (b.addScalar n).map fun x => (x.1, x.2.note n x.1) := by
  cases b.addScalar n <;> rfl

theorem make_scalar {tag : Tag} {text : Text.Wobbly} (hnew : b.made.lookup n = none)
    (hnode : b.graph.node n = .scalar tag text)
    (htag : tag ∈ [.null, .bool, .int, .float, .str, .binary, .timestamp]) :
    b.make n = (b.addScalar n).map fun x => (x.1, x.2.note n x.1) := by
  rw [← addScalar_note]
  simp only [List.mem_cons, List.not_mem_nil, or_false] at htag
  rcases htag with rfl | rfl | rfl | rfl | rfl | rfl | rfl <;> simp only [make, hnew, hnode, Node.tag]

/-- A node that is a copy gets a cell. --/
theorem make_ok (hg : g.Copies cells ρ) (hb : Sound g cells ρ pending b) (hn : n < g.size)
    (hall : cells.All (IsSoundCell cells) (ρ n)) : ∃ r b', b.make n = .ok (r, b') ∧ Sound g cells ρ pending b' ∧
      Extends b b' ∧ b'.made.lookup n = some r := by
  cases hnew : b.made.lookup n with
  | some r => exact ⟨r, b, make_of_some hnew, hb, .refl, hnew⟩
  | none =>
    have hcopy := hg.copy n hn
    rw [← hb.graph] at hcopy
    cases hkind : (cells.get (ρ n)).kind? with
    | some kind =>
      have hcell : (cells.get (ρ n)).kind?.isSome := by rw [hkind]; rfl
      obtain ⟨c, hc, hmake⟩ := make_container hnew hcell hcopy
      obtain ⟨hadds, hget⟩ := hb.adds (n := n) (c := c)
        { (b.add c).2.note n b.cells.size with waiting := b.waiting ++ [n] } rfl rfl rfl (.inl rfl)
      obtain ⟨hsound, hext⟩ := hadds.container hb hnew hn hall rfl hcell (Nat.le_refl _) (hget.symm ▸ hc)
      exact ⟨_, _, hmake, hsound, hext, hadds.lookup_self⟩
    | none =>
      obtain ⟨v, hv⟩ := Cell.kind?_eq_none_iff.mp hkind
      obtain ⟨tag, text, literal, hnode, hform⟩ := hcopy.scalar hv
      have hread := hall.self
      rw [IsSoundCell, hv] at hread
      obtain ⟨r, b', hadd, hadds, hwaiting, hget, hfresh⟩ := addScalar_ok hb hnode (hread tag text literal hform)
      obtain ⟨hsound, hext⟩ := hadds.scalar hb hnew hn hall hwaiting hv hget hfresh
      refine ⟨r, b'.note n r, ?_, hsound, hext, hadds.lookup_self⟩
      rw [make_scalar hnew hnode (tag_of_scalarForm hform), hadd, map_ok]

/-! ### Rows of cells -/

/-- Nodes that are copies get cells that stand for the cells they are copies of. --/
theorem makeAll_ok (hg : g.Copies cells ρ) (hb : Sound g cells ρ pending b) (ns : List Nat)
    (hns : ∀ n ∈ ns, n < g.size ∧ cells.All (IsSoundCell cells) (ρ n)) :
    ∃ rs b', b.makeAll ns = .ok (rs, b') ∧ Sound g cells ρ pending b' ∧ Extends b b' ∧
      List.Forall₂ (b'.Stands ρ) rs (ns.map ρ) := by
  induction ns generalizing b with
  | nil => exact ⟨[], b, rfl, hb, .refl, .nil⟩
  | cons n ns ih =>
    obtain ⟨hn, hall⟩ := hns n List.mem_cons_self
    obtain ⟨r, b₁, hmake, hb₁, hext₁, hlookup⟩ := make_ok hg hb hn hall
    obtain ⟨rs, b₂, hrest, hb₂, hext₂, hstands⟩ := ih hb₁ fun m hm => hns m (List.mem_cons_of_mem _ hm)
    refine ⟨r :: rs, b₂, ?_, hb₂, hext₁.trans hext₂, .cons (hext₂.stands ⟨n, hlookup, rfl⟩) hstands⟩
    rw [makeAll, hmake, ok_bind]
    simp only [hrest, ok_bind, pure_eq_ok]

/-- Cells that stand for cells that are apart are different keys. --/
theorem Sound.sameKey (hb : Sound g cells ρ pending b) {r r' s s' : Ref} (hr : b.Stands ρ r s)
    (hr' : b.Stands ρ r' s') (h : cells.IsApart s s') : b.cells.sameKey r r' = false := by
  obtain ⟨v, w, hv, hw, hsame, hne⟩ := h
  obtain ⟨m, hm, rfl⟩ := hr
  obtain ⟨n, hn, rfl⟩ := hr'
  exact Cells.IsApart.sameKey ⟨v, w, hb.scalar hm hv, hb.scalar hn hw, hsame, hne⟩

/-- Entries of nodes get cells; since the keys differ, none of them takes the place of another. --/
theorem makeEntries_ok (hg : g.Copies cells ρ) (hb : Sound g cells ρ pending b) (es : List (Nat × Nat))
    {found fs : List (Ref × Ref)} (hfound : List.Forall₂ (fun e f => b.Stands ρ e.1 f.1 ∧ b.Stands ρ e.2 f.2) found fs)
    (hes : ∀ e ∈ es, (e.1 < g.size ∧ cells.All (IsSoundCell cells) (ρ e.1)) ∧
      (e.2 < g.size ∧ cells.All (IsSoundCell cells) (ρ e.2)) ∧ (cells.get (ρ e.1)).kind? = none)
    (hapart : (fs.map Prod.fst ++ es.map fun e => ρ e.1).Pairwise cells.IsApart) :
    ∃ found' b', makeEntries b found es = .ok (found', b') ∧ Sound g cells ρ pending b' ∧ Extends b b' ∧
      List.Forall₂ (fun e f => b'.Stands ρ e.1 f.1 ∧ b'.Stands ρ e.2 f.2) found'
        (fs ++ es.map fun e => (ρ e.1, ρ e.2)) := by
  induction es generalizing b found fs with
  | nil =>
    rw [List.map_nil, List.append_nil]
    exact ⟨found, b, rfl, hb, .refl, hfound⟩
  | cons e es ih =>
    obtain ⟨k, v⟩ := e
    obtain ⟨⟨hk, hkall⟩, ⟨hv, hvall⟩, hkind⟩ := hes _ List.mem_cons_self
    obtain ⟨key, b₁, hmakeKey, hb₁, hext₁, hlookup₁⟩ := make_ok hg hb hk hkall
    obtain ⟨value, b₂, hmakeValue, hb₂, hext₂, hlookup₂⟩ := make_ok hg hb₁ hv hvall
    obtain ⟨w, hw⟩ := Cell.kind?_eq_none_iff.mp hkind
    have hcell : (b₁.cells.get key).kind?.isSome = false := by rw [hb₁.scalar hlookup₁ hw]; rfl
    have hstands : b₂.Stands ρ key (ρ k) := hext₂.stands ⟨k, hlookup₁, rfl⟩
    have hfound₂ : List.Forall₂ (fun e f => b₂.Stands ρ e.1 f.1 ∧ b₂.Stands ρ e.2 f.2) found fs :=
      hfound.imp fun _ _ h => ⟨hext₂.stands (hext₁.stands h.1), hext₂.stands (hext₁.stands h.2)⟩
    have hinsert : b₂.cells.insertEntry found key value = found ++ [(key, value)] := by
      refine Cells.insertEntry_of_sameKey_eq_false value fun e he => ?_
      obtain ⟨f, hf, hef⟩ := exists_of_forall₂ hfound₂ he
      refine hb₂.sameKey hef.1 hstands ?_
      exact (List.pairwise_append.mp hapart).2.2 _ (List.mem_map_of_mem hf) _ List.mem_cons_self
    obtain ⟨found', b₃, hrest, hb₃, hext₃, hall⟩ := @ih b₂ hb₂ (found ++ [(key, value)]) (fs ++ [(ρ k, ρ v)])
      (forall₂_append hfound₂ (.cons ⟨hstands, v, hlookup₂, rfl⟩ .nil)) (fun e he => hes e (List.mem_cons_of_mem _ he))
      (by simpa using hapart)
    refine ⟨found', b₃, ?_, hb₃, hext₁.trans (hext₂.trans hext₃), by simpa using hall⟩
    rw [makeEntries, hmakeKey, ok_bind]
    simp only [hcell, Bool.false_eq_true, if_false, hmakeValue, ok_bind, hinsert]
    exact hrest

/-! ### Containers -/

/-- A container that agrees with its cell is put in its place. --/
theorem Sound.fillWith {c : Cell} (h : Sound g cells ρ [n] b)
    (hagrees : Cell.Agrees (b.Stands ρ) c (cells.get (ρ n))) :
    Sound g cells ρ [] (b.fillWith n c) ∧ Extends b (b.fillWith n c) := by
  obtain ⟨-, r, hr, hkind⟩ := h.waits n List.mem_cons_self
  have heq : b.fillWith n c = { b with cells := b.cells.put r c } := by rw [Builder.fillWith, hr]
  rw [heq]
  have hlt := (h.node n r hr).2.1
  have hnodup := List.nodup_cons.mp h.nodup
  have hnan : b.cells.get r ≠ .scalar (.float .nan) := fun hc => by
    rw [hc] at hkind
    cases hkind
  -- Only the node itself has this cell, since the cell was a container before.
  have hother : ∀ m s, b.made.lookup m = some s → m ≠ n → s ≠ r := by
    rintro m s hm hmn rfl
    exact hmn (h.unique m n s hm hr hnan)
  refine ⟨⟨h.graph, fun m s hm => ?_, fun m s hm hout => ?_, fun m hm => ?_, hnodup.2, fun m k s hm hk hs => ?_,
    fun s hs => ?_⟩, fun _ _ h => h, fun _ h => .inl h⟩
  · obtain ⟨hm, hs, hall⟩ := h.node m s hm
    exact ⟨hm, (Cells.size_put b.cells r c).symm ▸ hs, hall⟩
  · by_cases hmn : m = n
    · subst hmn
      cases hr.symm.trans hm
      rw [show Cells.get _ r = c from Cells.get_put_self hlt c]
      exact hagrees
    · have hold := h.done m s hm fun hmem => (List.mem_cons.mp hmem).elim hmn hout
      rw [show Cells.get _ s = b.cells.get s from Cells.get_put_ne (hother m s hm hmn) c]
      exact hold
  · obtain ⟨hcell, s, hs, hkind⟩ := h.waits m (List.mem_cons_of_mem _ hm)
    have hmn : m ≠ n := by
      rintro rfl
      exact hnodup.1 hm
    exact ⟨hcell, s, hs, (Cells.get_put_ne (hother m s hs hmn) c).symm ▸ hkind⟩
  · by_cases hsr : s = r
    · subst hsr
      exact h.unique m k s hm hk hnan
    · exact h.unique m k s hm hk ((Cells.get_put_ne hsr c) ▸ hs)
  · obtain ⟨hs, hget⟩ := h.nan s hs
    have hsr : s ≠ r := by
      rintro rfl
      rw [hget] at hkind
      cases hkind
    exact ⟨(Cells.size_put b.cells r c).symm ▸ hs, (Cells.get_put_ne hsr c).trans hget⟩

theorem members_of_stands {found : List (Ref × Ref)} {members : List Ref} {s : Ref}
    (h : List.Forall₂ (fun e f => b.Stands ρ e.1 f.1 ∧ b.Stands ρ e.2 f.2) found (members.map fun m => (m, s))) :
    List.Forall₂ (b.Stands ρ) (found.map Prod.fst) members := by
  induction members generalizing found with
  | nil =>
    cases h
    exact .nil
  | cons m members ih =>
    obtain _ | ⟨hm, h⟩ := h
    exact .cons hm.1 (ih h)

/-- A container that waited is filled. --/
theorem fill_ok (hg : g.Copies cells ρ) (hb : Sound g cells ρ [n] b) (weight : Nat) :
    ∃ b', b.fill weight n = .ok b' ∧ Sound g cells ρ [] b' ∧ Extends b b' := by
  obtain ⟨hkind, r, hr, -⟩ := hb.waits n List.mem_cons_self
  obtain ⟨hn, -, hall⟩ := hb.node n r hr
  have hcopy := hg.copy n hn
  have hpart : ∀ j ∈ (g.node n).parts, j < g.size ∧ cells.All (IsSoundCell cells) (ρ j) :=
    fun j hj => ⟨hg.part n hn j hj, hcopy.all_part hall hj⟩
  have hself := hall.self
  cases hnode : g.node n with
  | scalar tag text =>
    rw [hnode] at hcopy
    obtain ⟨v, literal, hv, -⟩ := hcopy
    rw [hv] at hkind
    cases hkind
  | seq tag items =>
    rw [hnode] at hcopy hpart
    obtain ⟨rfl, hc⟩ := hcopy
    obtain ⟨rs, b₁, hmake, hb₁, hext₁, hstands⟩ := makeAll_ok hg hb items hpart
    obtain ⟨hb₂, hext₂⟩ := hb₁.fillWith (c := .list rs) (hc ▸ .list hstands)
    refine ⟨_, ?_, hb₂, hext₁.trans hext₂⟩
    simp only [fill, hb.graph, hnode, hmake, ok_bind, pure_eq_ok]
  | map tag entries =>
    rw [hnode] at hcopy hpart
    have hkey : ∀ e ∈ entries, e.1 < g.size ∧ cells.All (IsSoundCell cells) (ρ e.1) :=
      fun e he => hpart _ (fst_mem_parts he)
    have hvalue : ∀ e ∈ entries, e.2 < g.size ∧ cells.All (IsSoundCell cells) (ρ e.2) :=
      fun e he => hpart _ (snd_mem_parts he)
    have hkeys : (∀ e ∈ entries, (cells.get (ρ e.1)).kind? = none) ∧
        (entries.map fun e => ρ e.1).Pairwise cells.IsApart := by
      rcases hcopy with ⟨-, hc⟩ | ⟨-, hc, -⟩
      · rw [IsSoundCell, hc] at hself
        have hapart := List.pairwise_map.mp hself.2
        exact ⟨fun e he => hself.1 _ (List.mem_map_of_mem he), List.pairwise_map.mpr hapart⟩
      · rw [IsSoundCell, hc] at hself
        exact ⟨fun e he => hself.1 _ (List.mem_map_of_mem he), hself.2⟩
    have hentries : g.entries n = entries := by rw [Graph.entries, hnode]
    -- The graph stays as it is, so the nodes that were made before still stand.
    have hflatten : g.flatten (4 * weight + 4) n = .ok g :=
      hg.flatten_eq (hentries ▸ fun e he => ⟨(hkey e he).1, hkeys.1 e he⟩) _
    have hnil : List.Forall₂ (fun e f : Ref × Ref => b.Stands ρ e.1 f.1 ∧ b.Stands ρ e.2 f.2) [] [] := .nil
    obtain ⟨found, b₁, hmake, hb₁, hext₁, hstands⟩ := makeEntries_ok hg hb entries hnil
      (fun e he => ⟨hkey e he, hvalue e he, hkeys.1 e he⟩) (by simpa using hkeys.2)
    have hfill : b.fill weight n = if (tag == .map || tag == .set) = true then
        .ok (b₁.fillWith n (if tag == .set then .set (found.map Prod.fst) else .mapping found)) else .error .malformed := by
      obtain ⟨graph, cells', made, waiting, nan⟩ := b
      obtain rfl : graph = g := hb.graph
      simp only [fill, hnode, hflatten, ok_bind, hentries, hmake, pure_eq_ok]
    rw [hfill]
    rcases hcopy with ⟨rfl, hc⟩ | ⟨rfl, hc, hnull⟩
    · obtain ⟨hb₂, hext₂⟩ := hb₁.fillWith (c := .mapping found) (hc ▸ .mapping hstands)
      exact ⟨_, rfl, hb₂, hext₁.trans hext₂⟩
    · have hmap : (entries.map fun e => (ρ e.1, ρ e.2)) = (entries.map fun e => ρ e.1).map fun m => (m, cells.size) := by
        rw [List.map_map]
        exact List.map_congr_left fun e he => by rw [hnull e he]; rfl
      rw [List.nil_append, hmap] at hstands
      obtain ⟨hb₂, hext₂⟩ := hb₁.fillWith (c := .set (found.map Prod.fst)) (hc ▸ .set (members_of_stands hstands))
      exact ⟨_, rfl, hb₂, hext₁.trans hext₂⟩

/-- All containers get filled: every turn fills one that was not filled before. --/
theorem fillAll_ok (hg : g.Copies cells ρ) (weight : Nat) {fuel : Nat} {done : List Nat} (hb : Sound g cells ρ [] b)
    (hdone : ∀ n ∈ done, n ∉ b.waiting ∧ (b.made.lookup n).isSome) (hfuel : Outline.unmet g.size done < fuel) :
    ∃ b', b.fillAll weight fuel = .ok b' ∧ Sound g cells ρ [] b' ∧ Extends b b' ∧ b'.waiting = [] := by
  induction fuel generalizing b done with
  | zero => omega
  | succ fuel ih =>
    cases hwaiting : b.waiting with
    | nil => exact ⟨b, by simp only [fillAll, hwaiting], hb, .refl, hwaiting⟩
    | cons n rest =>
      have hb₀ : Sound g cells ρ [n] { b with waiting := rest } := by
        obtain ⟨graph, cells', made, waiting, nan⟩ := b
        subst hwaiting
        exact ⟨hb.graph, hb.node, hb.done, hb.waits, hb.nodup, hb.unique, hb.nan⟩
      obtain ⟨b₁, hfill, hb₁, hext₁⟩ := fill_ok hg hb₀ weight
      obtain ⟨-, r, hr, -⟩ := hb.waits n (by rw [hwaiting]; exact List.mem_cons_self)
      have hnodup : (n :: rest).Nodup := hwaiting ▸ hb.nodup
      have hnew : n ∉ done := fun hn => (hdone n hn).1 (hwaiting ▸ List.mem_cons_self)
      have hlt := Outline.unmet_cons_lt (hb.node n r hr).1 hnew
      -- A node that was filled has a cell, and only nodes without one come to wait; so every round fills a new node.
      have hdone₁ : ∀ m ∈ n :: done, m ∉ b₁.waiting ∧ (b₁.made.lookup m).isSome := by
        intro m hm
        have hmade : ∃ s, b.made.lookup m = some s := by
          rcases List.mem_cons.mp hm with rfl | hm
          · exact ⟨r, hr⟩
          · exact Option.isSome_iff_exists.mp (hdone m hm).2
        obtain ⟨s, hs⟩ := hmade
        refine ⟨fun hwaits => ?_, by rw [hext₁.made m s hs]; rfl⟩
        rcases hext₁.waiting m hwaits with hrest | hnone
        · rcases List.mem_cons.mp hm with rfl | hm
          · exact (List.nodup_cons.mp hnodup).1 hrest
          · exact (hdone m hm).1 (hwaiting ▸ List.mem_cons_of_mem _ hrest)
        · cases hs.symm.trans hnone
      obtain ⟨b₂, hrest, hb₂, hext₂, hempty⟩ := ih hb₁ hdone₁ (by omega)
      refine ⟨b₂, ?_, hb₂, ⟨fun m s hm => hext₂.made m s (hext₁.made m s hm), ?_⟩, hempty⟩
      · rw [fillAll, hwaiting]
        simp only [hfill, ok_bind, hrest]
      · rw [hempty]
        exact nofun

end Builder

open Builder in
/-- The document of a graph of copies mirrors the document that they are copies from. --/
theorem Graph.document_ok {root : Nat} (hg : g.Copies cells ρ) (hroot : root < g.size)
    (hall : cells.All (IsSoundCell cells) (ρ root)) :
    ∃ d, g.document root = .ok d ∧ Document.Mirrors d ⟨cells, ρ root⟩ := by
  have hb : Sound g cells ρ [] { graph := g } :=
    ⟨rfl, nofun, nofun, nofun, .nil, nofun, nofun⟩
  obtain ⟨r, b₁, hmake, hb₁, hext₁, hlookup⟩ := make_ok hg hb hroot hall
  have hfuel : Outline.unmet g.size [] < g.size + 1 := by
    rw [Outline.unmet_nil]
    omega
  obtain ⟨b₂, hfill, hb₂, hext₂, hempty⟩ := fillAll_ok hg g.weight hb₁ (List.forall_mem_nil _) hfuel
  have hagrees : ∀ s t, b₂.Stands ρ s t → Cell.Agrees (b₂.Stands ρ) (b₂.cells.get s) (cells.get t) := by
    rintro s t ⟨n, hn, rfl⟩
    exact hb₂.done n s hn (by rw [hempty]; exact List.not_mem_nil)
  refine ⟨⟨b₂.cells, r⟩, ?_, b₂.Stands ρ, ⟨root, hext₂.made _ _ hlookup, rfl⟩, hagrees, fun s t s' t' hst hst' hk => ?_⟩
  · rw [document, hmake]
    simp only [ok_bind, hfill, pure_eq_ok]
  · have hk' : keepsIdentity (cells.get t) = true := (hagrees s t hst).keepsIdentity_eq ▸ hk
    obtain ⟨m, hm, rfl⟩ := hst
    obtain ⟨n, hn, rfl⟩ := hst'
    refine ⟨fun hs => ?_, fun ht => ?_⟩
    · subst hs
      rw [hb₂.unique m n s hm hn fun hnan => by rw [hnan] at hk; cases hk]
    · obtain rfl := hg.once m (hb₂.node m s hm).1 n (hb₂.node n s' hn).1 hk' ht
      exact Option.some.inj (hm.symm.trans hn)

end Markup

end Retag

import Retag.Proofs.Markup.Builder
import Retag.Proofs.Markup.Loaded

/-! What every document that is built is like, whatever graph it is built from. Its scalars were read, the parts of its
    containers are there, and the keys of its mappings and the members of its sets are scalars that differ as keys.
    Scalars stay what they are while the containers are filled, so what was found about keys stays true. -/

namespace Retag

open Markup

/-! ### Keys -/

namespace Cells

variable {cells cells' : Cells} {ks : List Ref} {r s key value : Ref} {entries : List (Ref × Ref)}

/-- Cells stay what they are if they are scalars, and containers stay containers. --/
structure Keeps (cells cells' : Cells) : Prop where
  size : cells.size ≤ cells'.size
  scalar? : ∀ r < cells.size, cells'.scalar? r = cells.scalar? r

theorem Keeps.refl (cells : Cells) : Keeps cells cells := ⟨Nat.le_refl _, fun _ _ => rfl⟩

theorem Keeps.trans {cells'' : Cells} (h : Keeps cells cells') (h' : Keeps cells' cells'') : Keeps cells cells'' :=
  ⟨Nat.le_trans h.size h'.size, fun r hr => (h'.scalar? r (Nat.lt_of_lt_of_le hr h.size)).trans (h.scalar? r hr)⟩

theorem keeps_push (cells : Cells) (c : Cell) : Keeps cells (cells.push c) where
  size := by
    rw [Array.size_push]
    exact Nat.le_succ _
  scalar? := fun r hr => by rw [Cells.scalar?, get_push_of_lt hr, Cells.scalar?]

theorem scalar?_eq_none_iff : cells.scalar? r = none ↔ (cells.get r).kind?.isSome := by
  unfold Cells.scalar?
  cases cells.get r <;> simp [Cell.kind?]

/-- A container may take the place of another. --/
theorem keeps_put {c : Cell} (hr : cells.scalar? r = none) (hc : c.kind?.isSome) : Keeps cells (cells.put r c) where
  size := Nat.le_of_eq (size_put cells r c).symm
  scalar? := fun s hs => by
    by_cases hsr : s = r
    · subst hsr
      rw [hr, scalar?_eq_none_iff, get_put_self hs]
      exact hc
    · rw [Cells.scalar?, get_put_ne hsr, Cells.scalar?]

/-- Cells that may be the keys of a mapping: scalars that differ as keys. --/
structure AreKeys (cells : Cells) (ks : List Ref) : Prop where
  lt : ∀ k ∈ ks, k < cells.size
  scalar : ∀ k ∈ ks, (cells.scalar? k).isSome
  apart : ks.Pairwise fun r s => cells.sameKey r s = false

theorem areKeys_nil : AreKeys cells [] := ⟨nofun, nofun, .nil⟩

theorem AreKeys.mono (h : AreKeys cells ks) (hkeeps : Keeps cells cells') : AreKeys cells' ks where
  lt := fun k hk => Nat.lt_of_lt_of_le (h.lt k hk) hkeeps.size
  scalar := fun k hk => by
    rw [hkeeps.scalar? k (h.lt k hk)]
    exact h.scalar k hk
  apart := h.apart.imp_of_mem fun {r s} hr hs hrs => by
    rwa [sameKey, hkeeps.scalar? r (h.lt r hr), hkeeps.scalar? s (h.lt s hs), ← sameKey]

/-- A key that is inserted differs from those that are there, or is none of the keys afterwards. --/
theorem keys_insertEntry (cells : Cells) (entries : List (Ref × Ref)) (key value : Ref) :
    (cells.insertEntry entries key value).map Prod.fst = entries.map Prod.fst ∨
      ((cells.insertEntry entries key value).map Prod.fst = entries.map Prod.fst ++ [key] ∧
        ∀ k ∈ entries.map Prod.fst, cells.sameKey k key = false) := by
  induction entries with
  | nil => exact .inr ⟨rfl, nofun⟩
  | cons e entries ih =>
    rw [insertEntry]
    split
    · exact .inl rfl
    · rename_i hne
      rw [Bool.not_eq_true] at hne
      rcases ih with hkeys | ⟨hkeys, hall⟩
      · exact .inl (by rw [List.map_cons, List.map_cons, hkeys])
      · refine .inr ⟨by rw [List.map_cons, List.map_cons, hkeys, List.cons_append], fun k hk => ?_⟩
        rcases List.mem_cons.mp hk with rfl | hk
        · exact hne
        · exact hall k hk

theorem AreKeys.insertEntry (h : AreKeys cells (entries.map Prod.fst)) (hlt : key < cells.size)
    (hkey : (cells.scalar? key).isSome) (value : Ref) :
    AreKeys cells ((cells.insertEntry entries key value).map Prod.fst) := by
  rcases cells.keys_insertEntry entries key value with hkeys | ⟨hkeys, hall⟩
  · rwa [hkeys]
  · rw [hkeys]
    refine ⟨fun k hk => ?_, fun k hk => ?_, ?_⟩
    · rcases List.mem_append.mp hk with hk | hk
      · exact h.lt k hk
      · rwa [List.mem_singleton.mp hk]
    · rcases List.mem_append.mp hk with hk | hk
      · exact h.scalar k hk
      · rwa [List.mem_singleton.mp hk]
    · refine List.pairwise_append.mpr ⟨h.apart, List.pairwise_singleton _ _, fun k hk s hs => ?_⟩
      rw [List.mem_singleton.mp hs]
      exact hall k hk

/-- What comes in as a value of an inserted entry is the value that was there or the new one. --/
theorem snd_of_mem_insertEntry {e : Ref × Ref} (h : e ∈ cells.insertEntry entries key value) :
    e.2 = value ∨ e ∈ entries := by
  induction entries with
  | nil => exact .inl (List.mem_singleton.mp h ▸ rfl)
  | cons e' entries ih =>
    rw [insertEntry] at h
    split at h
    · rcases List.mem_cons.mp h with rfl | h
      · exact .inl rfl
      · exact .inr (List.mem_cons_of_mem _ h)
    · rcases List.mem_cons.mp h with rfl | h
      · exact .inr List.mem_cons_self
      · exact (ih h).imp id (List.mem_cons_of_mem _)

/-- Cells that may be the entries of a mapping. --/
structure AreEntries (cells : Cells) (entries : List (Ref × Ref)) : Prop where
  keys : AreKeys cells (entries.map Prod.fst)
  lt : ∀ e ∈ entries, e.2 < cells.size

theorem areEntries_nil : AreEntries cells [] := ⟨areKeys_nil, nofun⟩

theorem AreEntries.mono (h : AreEntries cells entries) (hkeeps : Keeps cells cells') : AreEntries cells' entries :=
  ⟨h.keys.mono hkeeps, fun e he => Nat.lt_of_lt_of_le (h.lt e he) hkeeps.size⟩

theorem AreEntries.insertEntry (h : AreEntries cells entries) (hlt : key < cells.size) (hkey : (cells.scalar? key).isSome)
    (hvalue : value < cells.size) : AreEntries cells (cells.insertEntry entries key value) where
  keys := h.keys.insertEntry hlt hkey value
  lt := fun e he => by
    rcases snd_of_mem_insertEntry he with heq | he
    · rwa [heq]
    · exact h.lt e he

/-! ### Cells that are built -/

/-- What a cell of a document that is built may be. --/
def IsBuilt (cells : Cells) : Cell → Prop
  | .scalar v => v.IsLoaded
  | .list items => ∀ r ∈ items, r < cells.size
  | .pair a b => a < cells.size ∧ b < cells.size
  | .mapping entries => AreEntries cells entries
  | .set members => AreKeys cells members

theorem IsBuilt.mono {c : Cell} (h : IsBuilt cells c) (hkeeps : Keeps cells cells') : IsBuilt cells' c := by
  cases c with
  | scalar v => exact h
  | list items => exact fun r hr => Nat.lt_of_lt_of_le (h r hr) hkeeps.size
  | pair a b => exact ⟨Nat.lt_of_lt_of_le h.1 hkeeps.size, Nat.lt_of_lt_of_le h.2 hkeeps.size⟩
  | mapping entries => exact AreEntries.mono h hkeeps
  | set members => exact AreKeys.mono h hkeeps

/-- The parts of a cell that is as it may be are there. --/
theorem IsBuilt.lt_size {c : Cell} (h : IsBuilt cells c) : ∀ r ∈ parts c, r < cells.size := by
  cases c with
  | scalar v => exact nofun
  | list items => exact h
  | pair a b =>
    intro r hr
    rcases List.mem_pair.mp hr with rfl | rfl
    · exact h.1
    · exact h.2
  | mapping entries =>
    intro r hr
    obtain ⟨e, he, hr⟩ := List.mem_flatMap.mp hr
    rcases List.mem_pair.mp hr with rfl | rfl
    · exact h.keys.lt _ (List.mem_map_of_mem he)
    · exact h.lt e he
  | set members => exact h.lt

/-- All cells are as they may be. --/
def AreBuilt (cells : Cells) : Prop :=
  ∀ r < cells.size, cells.IsBuilt (cells.get r)

/-- A name without a cell stands for what may be. --/
theorem AreBuilt.get (h : AreBuilt cells) (r : Ref) : IsBuilt cells (cells.get r) := by
  rcases Nat.lt_or_ge r cells.size with hr | hr
  · exact h r hr
  · rw [get_of_size_le hr]
    exact ⟨.null, "", rfl⟩

/-- A cell may be added if it is as it may be. --/
theorem AreBuilt.push (h : AreBuilt cells) {c : Cell} (hc : IsBuilt cells c) : AreBuilt (cells.push c) := by
  intro r hr
  have hkeeps := keeps_push cells c
  rw [Array.size_push] at hr
  rcases Nat.lt_succ_iff_lt_or_eq.mp hr with hr | rfl
  · rw [get_push_of_lt hr]
    exact (h r hr).mono hkeeps
  · rw [get_push_self]
    exact hc.mono hkeeps

/-- A container may take the place of another if it is as it may be. --/
theorem AreBuilt.put (h : AreBuilt cells) {c : Cell} (hr : cells.scalar? r = none) (hkind : c.kind?.isSome)
    (hc : IsBuilt cells c) : AreBuilt (cells.put r c) := by
  intro s hs
  have hkeeps := keeps_put hr hkind
  rw [size_put] at hs
  by_cases hsr : s = r
  · subst hsr
    rw [get_put_self hs]
    exact hc.mono hkeeps
  · rw [get_put_ne hsr]
    exact (h s hs).mono hkeeps

end Cells

namespace Markup.Builder

open Cells

variable {b b' b'' : Builder} {n : Nat} {r : Ref} {pending : List Nat}

/-- From one builder to another scalars and the cells of nodes are kept. --/
structure Keeps (b b' : Builder) : Prop where
  cells : Cells.Keeps b.cells b'.cells
  made : ∀ n r, b.made.lookup n = some r → b'.made.lookup n = some r

theorem Keeps.refl (b : Builder) : Keeps b b := ⟨.refl _, fun _ _ h => h⟩

theorem Keeps.trans (h : Keeps b b') (h' : Keeps b' b'') : Keeps b b'' :=
  ⟨h.cells.trans h'.cells, fun n r hn => h'.made n r (h.made n r hn)⟩

/-- A node whose cell is a container. --/
def Waits (b : Builder) (n : Nat) : Prop :=
  ∃ r < b.cells.size, b.made.lookup n = some r ∧ b.cells.scalar? r = none

theorem Waits.mono (h : b.Waits n) (hkeeps : Keeps b b') : b'.Waits n := by
  obtain ⟨r, hr, hn, hnone⟩ := h
  exact ⟨r, Nat.lt_of_lt_of_le hr hkeeps.cells.size, hkeeps.made n r hn, (hkeeps.cells.scalar? r hr).trans hnone⟩

/-- All cells so far are as they may be, and whatever the builder refers to is there. --/
structure Built (b : Builder) : Prop where
  cells : AreBuilt b.cells
  made : ∀ n r, b.made.lookup n = some r → r < b.cells.size
  waits : ∀ n ∈ b.waiting, b.Waits n
  nan : ∀ r, b.nan = some r → r < b.cells.size

/-- In the beginning there is nothing. --/
theorem built_start (g : Graph) : Built { graph := g } where
  cells := fun _ hr => absurd hr (Nat.not_lt_zero _)
  made := fun _ _ h => absurd h (by simp)
  waits := fun _ hm => absurd hm List.not_mem_nil
  nan := fun _ h => absurd h (by simp)

/-! ### One cell -/

/-- A node gets a cell, which is a new one or was there already. --/
theorem Built.note (hb : Built b) (hnew : b.made.lookup n = none) (hkeeps : Cells.Keeps b.cells b'.cells)
    (hcells : AreBuilt b'.cells) (hmade : b'.made = (n, r) :: b.made)
    (hr : r < b'.cells.size) (hwaiting : ∀ m ∈ b'.waiting, m ∈ b.waiting ∨ m = n ∧ b'.cells.scalar? r = none)
    (hnan : ∀ s, b'.nan = some s → s < b'.cells.size) : Built b' ∧ Keeps b b' := by
  have hkept : Keeps b b' := by
    refine ⟨hkeeps, fun m s hm => ?_⟩
    rw [hmade, lookup_note, if_neg]
    · exact hm
    · rintro rfl
      cases hnew.symm.trans hm
  refine ⟨⟨hcells, fun m s hm => ?_, fun m hm => ?_, hnan⟩, hkept⟩
  · rw [hmade, lookup_note] at hm
    split at hm
    · exact Option.some.inj hm ▸ hr
    · exact Nat.lt_of_lt_of_le (hb.made m s hm) hkeeps.size
  · rcases hwaiting m hm with hm | ⟨rfl, hnone⟩
    · exact (hb.waits m hm).mono hkept
    · exact ⟨r, hr, by rw [hmade, lookup_note, if_pos rfl], hnone⟩

/-- A node gets an empty container. --/
theorem Built.container (hb : Built b) (hnew : b.made.lookup n = none) {c : Cell} (hc : IsBuilt b.cells c)
    (hkind : c.kind?.isSome) : Built { (b.add c).2.note n b.cells.size with waiting := b.waiting ++ [n] } ∧
      Keeps b { (b.add c).2.note n b.cells.size with waiting := b.waiting ++ [n] } := by
  have hsize : b.cells.size < (b.cells.push c).size := by
    rw [Array.size_push]
    exact Nat.lt_succ_self _
  refine hb.note hnew (keeps_push b.cells c) (hb.cells.push hc) rfl hsize (fun m hm => ?_)
    fun s hs => Nat.lt_trans (hb.nan s hs) hsize
  rcases List.mem_append.mp hm with hm | hm
  · exact .inl hm
  · refine .inr ⟨List.mem_singleton.mp hm, scalar?_eq_none_iff.mpr ?_⟩
    change (Cells.get (b.cells.push c) b.cells.size).kind?.isSome
    rwa [get_push_self]

theorem isLoaded_of_scalar {node : Node} {text : Text.Wobbly} {v : Scalar} (h : scalar node text = .ok v) :
    v.IsLoaded := by
  unfold scalar at h
  split at h
  · cases h
  · exact ⟨_, _, h⟩

/-- A node gets the cell of a scalar. --/
theorem Built.addScalar (hb : Built b) (hnew : b.made.lookup n = none) (h : b.addScalar n = .ok (r, b')) :
    Built (b'.note n r) ∧ Keeps b (b'.note n r) ∧ r < (b'.note n r).cells.size := by
  simp only [Builder.addScalar, bind_eq_ok] at h
  obtain ⟨text, -, v, hv, h⟩ := h
  have hsize : b.cells.size < (b.cells.push (.scalar v)).size := by
    rw [Array.size_push]
    exact Nat.lt_succ_self _
  have hloaded : IsBuilt b.cells (.scalar v) := isLoaded_of_scalar hv
  split at h
  · rename_i s _ hs
    cases h
    have hlt := hb.nan _ hs
    obtain ⟨hbuilt, hkeeps⟩ := @Built.note b (b.note n r) n r hb hnew (.refl _) hb.cells rfl hlt (fun m hm => .inl hm) hb.nan
    exact ⟨hbuilt, hkeeps, hlt⟩
  · cases h
    obtain ⟨hbuilt, hkeeps⟩ := @Built.note b
      (Builder.note { (b.add (.scalar v)).2 with nan := some b.cells.size } n b.cells.size) n b.cells.size hb hnew
      (keeps_push b.cells (.scalar v)) (hb.cells.push hloaded) rfl hsize (fun m hm => .inl hm)
      fun s hs => Option.some.inj hs ▸ hsize
    exact ⟨hbuilt, hkeeps, hsize⟩
  · cases h
    obtain ⟨hbuilt, hkeeps⟩ := @Built.note b ((b.add (.scalar v)).2.note n b.cells.size) n b.cells.size hb hnew
      (keeps_push b.cells (.scalar v)) (hb.cells.push hloaded) rfl hsize (fun m hm => .inl hm)
      fun s hs => Nat.lt_trans (hb.nan s hs) hsize
    exact ⟨hbuilt, hkeeps, hsize⟩

/-- Every node gets a cell that is as it may be. --/
theorem Built.make (hb : Built b) (h : b.make n = .ok (r, b')) : Built b' ∧ Keeps b b' ∧ r < b'.cells.size := by
  cases hn : b.made.lookup n with
  | some s =>
    rw [make_of_some hn] at h
    cases h
    exact ⟨hb, .refl b, hb.made n r hn⟩
  | none =>
    have hcontainer : ∀ {c : Cell}, IsBuilt b.cells c → c.kind?.isSome →
        (b.cells.size, { (b.add c).2.note n b.cells.size with waiting := b.waiting ++ [n] }) = (r, b') →
          Built b' ∧ Keeps b b' ∧ r < b'.cells.size := by
      rintro c hc hkind heq
      cases heq
      obtain ⟨hbuilt, hkeeps⟩ := hb.container hn hc hkind
      exact ⟨hbuilt, hkeeps, hbuilt.made n _ (by rw [Builder.note, lookup_note, if_pos rfl])⟩
    unfold Builder.make at h
    rw [hn] at h
    dsimp only at h
    split at h
    · exact hcontainer (c := .list []) nofun rfl (Except.ok.inj h)
    · exact hcontainer (c := .list []) nofun rfl (Except.ok.inj h)
    · exact hcontainer (c := .list []) nofun rfl (Except.ok.inj h)
    · exact hcontainer (c := .mapping []) areEntries_nil rfl (Except.ok.inj h)
    · exact hcontainer (c := .set []) areKeys_nil rfl (Except.ok.inj h)
    · cases h
    · cases h
    · cases h
    · simp only [bind_eq_ok] at h
      obtain ⟨⟨s, b₁⟩, hadd, h⟩ := h
      cases h
      exact hb.addScalar hn hadd

/-! ### Rows of cells -/

theorem Built.makeAll (hb : Built b) {ns : List Nat} {rs : List Ref} (h : b.makeAll ns = .ok (rs, b')) :
    Built b' ∧ Keeps b b' ∧ ∀ r ∈ rs, r < b'.cells.size := by
  induction ns generalizing b rs with
  | nil =>
    cases h
    exact ⟨hb, .refl _, nofun⟩
  | cons n ns ih =>
    simp only [Builder.makeAll, bind_eq_ok] at h
    obtain ⟨⟨r, b₁⟩, hmake, ⟨rs₁, b₂⟩, hrest, h⟩ := h
    cases h
    obtain ⟨hb₁, hkeeps₁, hlt⟩ := hb.make hmake
    obtain ⟨hb₂, hkeeps₂, hlts⟩ := ih hb₁ hrest
    exact ⟨hb₂, hkeeps₁.trans hkeeps₂,
      List.forall_mem_cons.mpr ⟨Nat.lt_of_lt_of_le hlt hkeeps₂.cells.size, hlts⟩⟩

/-- The keys that are found for a mapping differ. --/
theorem Built.makeEntries (hb : Built b) {es : List (Nat × Nat)} {found found' : List (Ref × Ref)}
    (hfound : AreEntries b.cells found) (h : b.makeEntries found es = .ok (found', b')) :
    Built b' ∧ Keeps b b' ∧ AreEntries b'.cells found' := by
  induction es generalizing b found with
  | nil =>
    cases h
    exact ⟨hb, .refl _, hfound⟩
  | cons e es ih =>
    obtain ⟨k, v⟩ := e
    simp only [Builder.makeEntries, bind_eq_ok] at h
    obtain ⟨⟨key, b₁⟩, hkey, h⟩ := h
    obtain ⟨hb₁, hkeeps₁, hlt⟩ := hb.make hkey
    dsimp only at h
    split at h
    · cases h
    · rename_i hkind
      obtain ⟨⟨value, b₂⟩, hvalue, h⟩ := bind_eq_ok.mp h
      obtain ⟨hb₂, hkeeps₂, hltv⟩ := hb₁.make hvalue
      have hscalar : (b₂.cells.scalar? key).isSome := by
        rw [hkeeps₂.cells.scalar? key hlt, Option.isSome_iff_ne_none]
        exact fun hnone => hkind (scalar?_eq_none_iff.mp hnone)
      have hentries := (hfound.mono (hkeeps₁.cells.trans hkeeps₂.cells)).insertEntry
        (Nat.lt_of_lt_of_le hlt hkeeps₂.cells.size) hscalar hltv
      obtain ⟨hb₃, hkeeps₃, hentries'⟩ := ih hb₂ hentries h
      exact ⟨hb₃, hkeeps₁.trans (hkeeps₂.trans hkeeps₃), hentries'⟩

theorem Built.makePairs (hb : Built b) {ns : List Nat} {rs : List Ref} (h : b.makePairs ns = .ok (rs, b')) :
    Built b' ∧ Keeps b b' ∧ ∀ r ∈ rs, r < b'.cells.size := by
  induction ns generalizing b rs with
  | nil =>
    cases h
    exact ⟨hb, .refl _, nofun⟩
  | cons n ns ih =>
    unfold Builder.makePairs at h
    split at h
    · simp only [bind_eq_ok] at h
      obtain ⟨⟨key, b₁⟩, hkey, ⟨value, b₂⟩, hvalue, ⟨rs₁, b₃⟩, hrest, h⟩ := h
      cases h
      obtain ⟨hb₁, hkeeps₁, hltk⟩ := hb.make hkey
      obtain ⟨hb₂, hkeeps₂, hltv⟩ := hb₁.make hvalue
      have hpair : IsBuilt b₂.cells (.pair key value) := ⟨Nat.lt_of_lt_of_le hltk hkeeps₂.cells.size, hltv⟩
      have hsize : b₂.cells.size < (b₂.cells.push (.pair key value)).size := by
        rw [Array.size_push]
        exact Nat.lt_succ_self _
      have hkeeps : Keeps b₂ (b₂.add (.pair key value)).2 := ⟨keeps_push b₂.cells _, fun _ _ h => h⟩
      have hadd : Built (b₂.add (.pair key value)).2 :=
        ⟨hb₂.cells.push hpair, fun m s hm => Nat.lt_trans (hb₂.made m s hm) hsize,
          fun m hm => (hb₂.waits m hm).mono hkeeps, fun s hs => Nat.lt_trans (hb₂.nan s hs) hsize⟩
      obtain ⟨hb₃, hkeeps₃, hlts⟩ := ih hadd hrest
      exact ⟨hb₃, hkeeps₁.trans (hkeeps₂.trans (hkeeps.trans hkeeps₃)),
        List.forall_mem_cons.mpr ⟨Nat.lt_of_lt_of_le hsize hkeeps₃.cells.size, hlts⟩⟩
    · cases h

/-! ### Containers -/

/-- A container that waits may be filled with one that is as it may be. --/
theorem Built.fillWith (hb : Built b) (hn : b.Waits n) {c : Cell} (hc : IsBuilt b.cells c) (hkind : c.kind?.isSome) :
    Built (b.fillWith n c) := by
  obtain ⟨r, hr, hlookup, hnone⟩ := hn
  have heq : b.fillWith n c = { b with cells := b.cells.put r c } := by rw [Builder.fillWith, hlookup]
  rw [heq]
  have hkeeps : Keeps b { b with cells := b.cells.put r c } := ⟨keeps_put hnone hkind, fun _ _ h => h⟩
  have hsize : (b.cells.put r c).size = b.cells.size := size_put b.cells r c
  exact ⟨hb.cells.put hnone hkind hc, fun m s hm => hsize.symm ▸ hb.made m s hm,
    fun m hm => (hb.waits m hm).mono hkeeps, fun s hs => hsize.symm ▸ hb.nan s hs⟩

/-- Filling a container leaves all cells as they may be. --/
theorem Built.fill (hb : Built b) (hn : b.Waits n) {weight : Nat} (h : b.fill weight n = .ok b') : Built b' := by
  unfold Builder.fill at h
  split at h
  · cases h
  · split at h
    · simp only [bind_eq_ok] at h
      obtain ⟨⟨rs, b₁⟩, hmake, h⟩ := h
      cases h
      obtain ⟨hb₁, hkeeps, hlt⟩ := hb.makeAll hmake
      exact hb₁.fillWith (hn.mono hkeeps) hlt rfl
    · simp only [bind_eq_ok] at h
      obtain ⟨⟨rs, b₁⟩, hmake, h⟩ := h
      cases h
      obtain ⟨hb₁, hkeeps, hlt⟩ := hb.makePairs hmake
      exact hb₁.fillWith (hn.mono hkeeps) hlt rfl
    · simp only [bind_eq_ok] at h
      obtain ⟨⟨rs, b₁⟩, hmake, h⟩ := h
      cases h
      obtain ⟨hb₁, hkeeps, hlt⟩ := hb.makePairs hmake
      exact hb₁.fillWith (hn.mono hkeeps) hlt rfl
    · cases h
  · rename_i tag _ _
    split at h
    · simp only [bind_eq_ok] at h
      obtain ⟨g, -, ⟨es, b₁⟩, hmake, h⟩ := h
      cases h
      have hgraph : Built { b with graph := g } := ⟨hb.cells, hb.made, hb.waits, hb.nan⟩
      obtain ⟨hb₁, hkeeps, hentries⟩ := hgraph.makeEntries areEntries_nil hmake
      have hwaits : b₁.Waits n := Waits.mono (b := { b with graph := g }) hn hkeeps
      split
      · exact hb₁.fillWith hwaits hentries.keys rfl
      · exact hb₁.fillWith hwaits hentries rfl
    · cases h

theorem Built.fillAll {weight fuel : Nat} (hb : Built b) (h : b.fillAll weight fuel = .ok b') : Built b' := by
  induction fuel generalizing b with
  | zero =>
    cases h
    exact hb
  | succ fuel ih =>
    unfold Builder.fillAll at h
    split at h
    · cases h
      exact hb
    · rename_i n rest hwaiting
      obtain ⟨b₁, hfill, h⟩ := bind_eq_ok.mp h
      have hb₀ : Built { b with waiting := rest } :=
        ⟨hb.cells, hb.made, fun m hm => hb.waits m (hwaiting ▸ List.mem_cons_of_mem _ hm), hb.nan⟩
      exact ih (hb₀.fill (hb.waits n (hwaiting ▸ List.mem_cons_self)) hfill) h

end Markup.Builder

open Builder

/-- All cells of a document that is built are as they may be. --/
theorem Markup.Graph.areBuilt_document {g : Graph} {root : Nat} {d : Document} (h : g.document root = .ok d) :
    d.cells.AreBuilt := by
  simp only [document, bind_eq_ok] at h
  obtain ⟨⟨r, b₁⟩, hmake, b₂, hfill, h⟩ := h
  cases h
  exact (((built_start g).make hmake).1.fillAll hfill).cells

end Retag

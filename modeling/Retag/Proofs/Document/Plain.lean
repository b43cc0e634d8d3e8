import Mathlib.Data.List.Perm.Subperm
import Retag.Number.Numeral
import Retag.Proofs.Document.Agrees
import Retag.Proofs.Document.Cells

/-! Plain values: null, truth values, whole numbers that can be written, texts of printable ASCII characters, and the
    lists and mappings of such values. A document holds a plain value if its root does; agreeing documents hold the
    same value, and the document made of a plain value holds it. -/

namespace Retag

/-! ### Plain values -/

def IsPrintable (x : Char) : Prop :=
  0x20 ≤ x.toNat ∧ x.toNat ≤ 0x7e

instance (x : Char) : Decidable (IsPrintable x) :=
  inferInstanceAs (Decidable (0x20 ≤ x.toNat ∧ x.toNat ≤ 0x7e))

def ArePrintable (cs : List Char) : Prop :=
  ∀ x ∈ cs, IsPrintable x

instance (cs : List Char) : Decidable (ArePrintable cs) :=
  List.decidableBAll _ cs

def Scalar.IsPlain : Scalar → Prop
  | .null | .bool _ => True
  | .int n => (Nat.toDigits 10 n.natAbs).length ≤ Number.maxDigits
  | .str s => ArePrintable s.toList
  | _ => False

instance : (v : Scalar) → Decidable v.IsPlain
  | .null | .bool _ => isTrue trivial
  | .int n => inferInstanceAs (Decidable ((Nat.toDigits 10 n.natAbs).length ≤ Number.maxDigits))
  | .str s => inferInstanceAs (Decidable (ArePrintable s.toList))
  | .torn _ | .float _ | .bytes _ | .date _ | .moment _ => isFalse id

namespace Value

def SameKey : Value → Value → Prop
  | .scalar v, .scalar w => v.same w = true
  | _, _ => False

mutual

/-- A value that is plain; the keys of a mapping are scalars, and no two of them are the same. --/
def IsPlain : Value → Prop
  | .scalar v => v.IsPlain
  | .list items => ArePlain items
  | .mapping entries => EntriesArePlain entries ∧ entries.Pairwise fun e f => ¬SameKey e.1 f.1
  | _ => False

def ArePlain : List Value → Prop
  | [] => True
  | v :: rest => v.IsPlain ∧ ArePlain rest

def EntriesArePlain : List (Value × Value) → Prop
  | [] => True
  | (k, v) :: rest => (∃ w, k = .scalar w ∧ w.IsPlain) ∧ v.IsPlain ∧ EntriesArePlain rest

end

end Value

theorem Scalar.IsPlain.same_self {v : Scalar} (h : v.IsPlain) : v.same v = true := by
  refine Scalar.same_self ?_
  rintro rfl
  exact h

/-! ### What cells hold -/

namespace Cells

mutual

/-- A cell holds a plain value. --/
inductive Holds (cells : Cells) : Ref → Value → Prop
  | scalar {r : Ref} {v : Scalar} (h : cells.get r = .scalar v) : Holds cells r (.scalar v)
  | list {r : Ref} {rs : List Ref} {items : List Value} (h : cells.get r = .list rs) (hs : HoldsAll cells rs items) :
      Holds cells r (.list items)
  | mapping {r : Ref} {es : List (Ref × Ref)} {entries : List (Value × Value)} (h : cells.get r = .mapping es)
      (hs : HoldsEntries cells es entries) : Holds cells r (.mapping entries)

inductive HoldsAll (cells : Cells) : List Ref → List Value → Prop
  | nil : HoldsAll cells [] []
  | cons {r : Ref} {rs : List Ref} {v : Value} {items : List Value} (h : Holds cells r v)
      (hs : HoldsAll cells rs items) : HoldsAll cells (r :: rs) (v :: items)

inductive HoldsEntries (cells : Cells) : List (Ref × Ref) → List (Value × Value) → Prop
  | nil : HoldsEntries cells [] []
  | cons {a b : Ref} {es : List (Ref × Ref)} {k v : Value} {entries : List (Value × Value)} (hk : Holds cells a k)
      (hv : Holds cells b v) (hs : HoldsEntries cells es entries) :
      HoldsEntries cells ((a, b) :: es) ((k, v) :: entries)

end

variable {cells cells' : Cells}

theorem HoldsEntries.append {es es' : List (Ref × Ref)} {entries entries' : List (Value × Value)} :
    HoldsEntries cells es entries → HoldsEntries cells es' entries' →
    HoldsEntries cells (es ++ es') (entries ++ entries')
  | .nil, h' => h'
  | .cons hk hv hs, h' => .cons hk hv (hs.append h')

theorem HoldsEntries.exists_key : {es : List (Ref × Ref)} → {entries : List (Value × Value)} →
    HoldsEntries cells es entries → ∀ e ∈ es, ∃ f ∈ entries, Holds cells e.1 f.1
  | _, _, .nil, e, he => absurd he List.not_mem_nil
  | _, _, .cons hk hv hs, e, he => by
    rcases List.mem_cons.mp he with rfl | he
    · exact ⟨_, List.mem_cons_self, hk⟩
    · obtain ⟨f, hf, h⟩ := hs.exists_key e he
      exact ⟨f, List.mem_cons_of_mem _ hf, h⟩

mutual

/-- A cell holds one value only. --/
theorem Holds.unique : {r : Ref} → {v w : Value} → Holds cells r v → Holds cells r w → v = w
  | _, _, _, .scalar h, h' => by
    cases h' with
    | scalar h' =>
      cases h.symm.trans h'
      rfl
    | list h' => cases h.symm.trans h'
    | mapping h' => cases h.symm.trans h'
  | _, _, _, .list h hs, h' => by
    cases h' with
    | scalar h' => cases h.symm.trans h'
    | list h' hs' =>
      cases h.symm.trans h'
      rw [hs.unique hs']
    | mapping h' => cases h.symm.trans h'
  | _, _, _, .mapping h hs, h' => by
    cases h' with
    | scalar h' => cases h.symm.trans h'
    | list h' => cases h.symm.trans h'
    | mapping h' hs' =>
      cases h.symm.trans h'
      rw [hs.unique hs']

theorem HoldsAll.unique : {rs : List Ref} → {vs ws : List Value} → HoldsAll cells rs vs → HoldsAll cells rs ws →
    vs = ws
  | _, _, _, .nil, h' => by
    cases h'
    rfl
  | _, _, _, .cons h hs, h' => by
    obtain _ | ⟨h', hs'⟩ := h'
    rw [h.unique h', hs.unique hs']

theorem HoldsEntries.unique : {es : List (Ref × Ref)} → {vs ws : List (Value × Value)} → HoldsEntries cells es vs →
    HoldsEntries cells es ws → vs = ws
  | _, _, _, .nil, h' => by
    cases h'
    rfl
  | _, _, _, .cons hk hv hs, h' => by
    obtain _ | ⟨hk', hv', hs'⟩ := h'
    rw [hk.unique hk', hv.unique hv', hs.unique hs']

end

/-! ### The value of a cell -/

/-- Open containers: they differ, and hold values that are larger than what is inside them. --/
structure Opened (cells : Cells) (above : List Ref) (size : Nat) : Prop where
  nodup : above.Nodup
  larger : ∀ a ∈ above, a < cells.size ∧ ∃ w, Holds cells a w ∧ size < sizeOf w

theorem Opened.length_le {above : List Ref} {size : Nat} (h : Opened cells above size) : above.length ≤ cells.size := by
  have := (h.nodup.subperm fun a ha => List.mem_range.mpr (h.larger a ha).1).length_le
  rwa [List.length_range] at this

theorem Opened.mono {above : List Ref} {size size' : Nat} (h : Opened cells above size) (hs : size' ≤ size) :
    Opened cells above size' :=
  ⟨h.nodup, fun a ha => by
    obtain ⟨hlt, w, hw, hsize⟩ := h.larger a ha
    exact ⟨hlt, w, hw, Nat.lt_of_le_of_lt hs hsize⟩⟩

theorem Opened.not_mem {above : List Ref} {r : Ref} {v : Value} (h : Opened cells above (sizeOf v))
    (hv : Holds cells r v) : r ∉ above := by
  intro hr
  obtain ⟨-, w, hw, hlt⟩ := h.larger r hr
  rw [hv.unique hw] at hlt
  exact Nat.lt_irrefl _ hlt

theorem Opened.cons {above : List Ref} {r : Ref} {v : Value} {size : Nat} (h : Opened cells above (sizeOf v))
    (hv : Holds cells r v) (hr : r < cells.size) (hs : size < sizeOf v) : Opened cells (r :: above) size := by
  refine ⟨List.nodup_cons.mpr ⟨h.not_mem hv, h.nodup⟩, fun a ha => ?_⟩
  rcases List.mem_cons.mp ha with rfl | ha
  · exact ⟨hr, v, hv, hs⟩
  · exact (h.mono (Nat.le_of_lt hs)).larger a ha

theorem lt_size_of_ne_null {r : Ref} (h : cells.get r ≠ .scalar .null) : r < cells.size := by
  rcases Nat.lt_or_ge r cells.size with hlt | hge
  · exact hlt
  · exact absurd (by simp [get, hge]) h

mutual

theorem Holds.view : {r : Ref} → {v : Value} → Holds cells r v → ∀ {depth : Nat} {above : List Ref},
    Opened cells above (sizeOf v) → cells.size + 2 ≤ depth + above.length → cells.view depth above r = v
  | r, _, .scalar h, depth, above, habove, hdepth => by
    have := habove.length_le
    obtain ⟨depth, rfl⟩ : ∃ d, depth = d + 1 := ⟨depth - 1, by omega⟩
    rw [Cells.view, h]
  | r, .list items, .list h hs, depth, above, habove, hdepth => by
    have := habove.length_le
    obtain ⟨depth, rfl⟩ : ∃ d, depth = d + 1 := ⟨depth - 1, by omega⟩
    have hnot := habove.not_mem (.list h hs)
    have hinner := habove.cons (.list h hs) (lt_size_of_ne_null (by rw [h]; exact nofun))
      (show sizeOf items < sizeOf (Value.list items) by simp)
    have hrow := @HoldsAll.view _ items hs depth (r :: above) hinner (by rw [List.length_cons]; omega)
    rw [Cells.view, h]
    simp [Cell.kind?, List.idxOf?_eq_none_iff.mpr hnot, hrow]
  | r, .mapping entries, .mapping h hs, depth, above, habove, hdepth => by
    have := habove.length_le
    obtain ⟨depth, rfl⟩ : ∃ d, depth = d + 1 := ⟨depth - 1, by omega⟩
    have hnot := habove.not_mem (.mapping h hs)
    have hinner := habove.cons (.mapping h hs) (lt_size_of_ne_null (by rw [h]; exact nofun))
      (show sizeOf entries < sizeOf (Value.mapping entries) by simp)
    have hrow := @HoldsEntries.view _ entries hs depth (r :: above) hinner (by rw [List.length_cons]; omega)
    rw [Cells.view, h]
    simp [Cell.kind?, List.idxOf?_eq_none_iff.mpr hnot, hrow]

theorem HoldsAll.view : {rs : List Ref} → {items : List Value} → HoldsAll cells rs items → ∀ {depth : Nat}
    {above : List Ref}, Opened cells above (sizeOf items) → cells.size + 2 ≤ depth + above.length →
    rs.map (cells.view depth above) = items
  | _, _, .nil, _, _, _, _ => rfl
  | _, v :: items, .cons h hs, depth, above, habove, hdepth => by
    have hsize : sizeOf (v :: items) = 1 + sizeOf v + sizeOf items := rfl
    rw [List.map_cons, h.view (habove.mono (by omega)) hdepth, hs.view (habove.mono (by omega)) hdepth]

theorem HoldsEntries.view : {es : List (Ref × Ref)} → {entries : List (Value × Value)} →
    HoldsEntries cells es entries → ∀ {depth : Nat} {above : List Ref}, Opened cells above (sizeOf entries) →
    cells.size + 2 ≤ depth + above.length →
    es.map (fun e => (cells.view depth above e.1, cells.view depth above e.2)) = entries
  | _, _, .nil, _, _, _, _ => rfl
  | _, (k, v) :: entries, .cons hk hv hs, depth, above, habove, hdepth => by
    have hsize : sizeOf ((k, v) :: entries) = 1 + (1 + sizeOf k + sizeOf v) + sizeOf entries := rfl
    rw [List.map_cons, hk.view (habove.mono (by omega)) hdepth, hv.view (habove.mono (by omega)) hdepth,
      hs.view (habove.mono (by omega)) hdepth]

end

/-- A cell that holds a value has this value. --/
theorem Holds.value {r : Ref} {v : Value} (h : Holds cells r v) : cells.value r = v :=
  h.view ⟨.nil, nofun⟩ (Nat.le_refl _)

/-! ### Agreeing cells -/

section

variable {R : Ref → Ref → Prop}

mutual

/-- A cell holds what a cell holds that it agrees with. --/
theorem Holds.agrees (hR : ∀ r s, R r s → Cell.Agrees R (cells'.get r) (cells.get s)) : {r s : Ref} → {v : Value} →
    R r s → Holds cells s v → Holds cells' r v
  | r, s, _, hrs, .scalar h => by
    have hagrees := hR r s hrs
    rw [h] at hagrees
    exact .scalar hagrees.eq_scalar
  | r, s, _, hrs, .list h hs => by
    have hagrees := hR r s hrs
    rw [h] at hagrees
    obtain ⟨rs, hc, hall⟩ := hagrees.eq_list
    exact .list hc (hs.agrees hR hall)
  | r, s, _, hrs, .mapping h hs => by
    have hagrees := hR r s hrs
    rw [h] at hagrees
    obtain ⟨es, hc, hall⟩ := hagrees.eq_mapping
    exact .mapping hc (hs.agrees hR hall)

theorem HoldsAll.agrees (hR : ∀ r s, R r s → Cell.Agrees R (cells'.get r) (cells.get s)) : {rs ss : List Ref} →
    {items : List Value} → List.Forall₂ R rs ss → HoldsAll cells ss items → HoldsAll cells' rs items
  | _, _, _, .nil, .nil => .nil
  | _, _, _, .cons hrs hall, .cons h hs => .cons (h.agrees hR hrs) (hs.agrees hR hall)

theorem HoldsEntries.agrees (hR : ∀ r s, R r s → Cell.Agrees R (cells'.get r) (cells.get s)) :
    {es fs : List (Ref × Ref)} → {entries : List (Value × Value)} →
    List.Forall₂ (fun e f => R e.1 f.1 ∧ R e.2 f.2) es fs → HoldsEntries cells fs entries → HoldsEntries cells' es entries
  | _, _, _, .nil, .nil => .nil
  | _, _, _, .cons hef hall, .cons hk hv hs => .cons (hk.agrees hR hef.1) (hv.agrees hR hef.2) (hs.agrees hR hall)

end

end

/-! ### The document of a value -/

/-- Cells that were there are kept. --/
structure Grows (cells cells' : Cells) : Prop where
  size : cells.size ≤ cells'.size
  kept : ∀ r < cells.size, cells'.get r = cells.get r

theorem Grows.refl : Grows cells cells := ⟨Nat.le_refl _, fun _ _ => rfl⟩

theorem Grows.trans {cells'' : Cells} (h : Grows cells cells') (h' : Grows cells' cells'') : Grows cells cells'' :=
  ⟨Nat.le_trans h.size h'.size, fun r hr => (h'.kept r (Nat.lt_of_lt_of_le hr h.size)).trans (h.kept r hr)⟩

theorem grows_push (cells : Cells) (c : Cell) : Grows cells (cells.push c) := by
  refine ⟨?_, fun r hr => get_push_of_lt hr c⟩
  rw [Array.size_push]
  exact Nat.le_succ _

theorem get_of_grows_push {c : Cell} (h : Grows (cells.push c) cells') : cells'.get cells.size = c := by
  rw [h.kept cells.size (by rw [Array.size_push]; exact Nat.lt_succ_self _), get_push_self]

end Cells

namespace Value

open Cells

mutual

/-- The cells that are added for a plain value hold it, and hold it still when more cells come. --/
theorem holds_addTo : (v : Value) → v.IsPlain → ∀ {cells : Cells}, Grows cells (addTo cells v).1 ∧
    ∀ {cells' : Cells}, Grows (addTo cells v).1 cells' → Holds cells' (addTo cells v).2 v
  | .scalar v, _, cells => ⟨grows_push cells _, fun h => .scalar (get_of_grows_push h)⟩
  | .list items, hitems, cells => by
    obtain ⟨hgrows, hholds⟩ := @holds_addItems items hitems cells
    exact ⟨hgrows.trans (grows_push _ _), fun h => .list (get_of_grows_push h) (hholds ((grows_push _ _).trans h))⟩
  | .mapping entries, ⟨hentries, hdistinct⟩, cells => by
    obtain ⟨hgrows, hholds⟩ := @holds_addEntries entries hentries cells [] [] (fun _ => .nil) nofun hdistinct
    exact ⟨hgrows.trans (grows_push _ _), fun h => .mapping (get_of_grows_push h) (hholds ((grows_push _ _).trans h))⟩

theorem holds_addItems : (items : List Value) → ArePlain items → ∀ {cells : Cells},
    Grows cells (addItems cells items).1 ∧
      ∀ {cells' : Cells}, Grows (addItems cells items).1 cells' → HoldsAll cells' (addItems cells items).2 items
  | [], _, cells => ⟨.refl, fun _ => .nil⟩
  | v :: items, ⟨hv, hitems⟩, cells => by
    obtain ⟨hgrows, hholds⟩ := @holds_addTo v hv cells
    obtain ⟨hgrows', hholds'⟩ := @holds_addItems items hitems (addTo cells v).1
    exact ⟨hgrows.trans hgrows', fun h => .cons (hholds (hgrows'.trans h)) (hholds' h)⟩

theorem holds_addEntries : (entries : List (Value × Value)) → EntriesArePlain entries → ∀ {cells : Cells}
    {es : List (Ref × Ref)} {done : List (Value × Value)},
    (∀ {cells' : Cells}, Grows cells cells' → HoldsEntries cells' es done) →
    (∀ e ∈ done, ∃ w, e.1 = .scalar w ∧ w.IsPlain) →
    (done ++ entries).Pairwise (fun e f => ¬SameKey e.1 f.1) →
    Grows cells (addEntries cells entries es).1 ∧ ∀ {cells' : Cells}, Grows (addEntries cells entries es).1 cells' →
      HoldsEntries cells' (addEntries cells entries es).2 (done ++ entries)
  | [], _, cells, es, done, hes, _, _ => by
    rw [List.append_nil]
    exact ⟨.refl, hes⟩
  | (k, v) :: entries, ⟨⟨w, hk, hw⟩, hv, hentries⟩, cells, es, done, hes, hkeys, hdistinct => by
    subst hk
    obtain ⟨hgrows, hholds⟩ := @holds_addTo v hv (cells.push (.scalar w))
    have hgrows' : Grows cells (addTo (cells.push (.scalar w)) v).1 := (grows_push _ _).trans hgrows
    have hkey : ∀ {cells' : Cells}, Grows (addTo (cells.push (.scalar w)) v).1 cells' →
        cells'.get cells.size = .scalar w := fun h => get_of_grows_push (hgrows.trans h)
    -- No key that is there is the same, so the entry comes last.
    have hnew : ∀ e ∈ es, (addTo (cells.push (.scalar w)) v).1.sameKey e.1 cells.size = false := by
      intro e he
      obtain ⟨f, hf, hfe⟩ := (hes hgrows').exists_key e he
      obtain ⟨u, hu, -⟩ := hkeys f hf
      have hne := (List.pairwise_append.mp hdistinct).2.2 f hf _ List.mem_cons_self
      rw [hu] at hfe hne
      obtain ⟨hu⟩ := hfe
      refine IsApart.sameKey ⟨u, w, hu, hkey .refl, Bool.not_eq_true _ ▸ hne, ?_⟩
      rintro rfl
      exact hne hw.same_self
    have hinsert := insertEntry_of_sameKey_eq_false (addTo (cells.push (.scalar w)) v).2 hnew
    obtain ⟨hgrows'', hholds'⟩ := @holds_addEntries entries hentries (addTo (cells.push (.scalar w)) v).1
      (es ++ [(cells.size, (addTo (cells.push (.scalar w)) v).2)]) (done ++ [(.scalar w, v)])
      (fun h => (hes (hgrows'.trans h)).append (.cons (.scalar (hkey h)) (hholds h) .nil))
      (fun e he => (List.mem_append.mp he).elim (hkeys e) fun he => ⟨w, List.mem_singleton.mp he ▸ rfl, hw⟩)
      (by simpa using hdistinct)
    have heq : addEntries cells ((.scalar w, v) :: entries) es = addEntries (addTo (cells.push (.scalar w)) v).1 entries
        (es ++ [(cells.size, (addTo (cells.push (.scalar w)) v).2)]) := by
      rw [addEntries]
      exact congrArg (addEntries _ entries) hinsert
    rw [heq]
    exact ⟨hgrows'.trans hgrows'', fun h => by simpa using hholds' h⟩

end

/-- The document of a plain value holds it. --/
theorem holds_ofValue {v : Value} (h : v.IsPlain) : Holds (Document.ofValue v).cells (Document.ofValue v).root v :=
  (holds_addTo v h).2 .refl

end Value

end Retag

import Mathlib.Data.List.Nodup
import Mathlib.Data.List.Perm.Subperm
import Retag.Proofs.Document.Cells

/-! Documents that share no parts. A cell spans a value if the value is laid out from it; the containers that are met
    on the way are listed. When none is listed twice, a change of one container leaves alone every part that does not
    list it. -/

namespace Retag

namespace Cells

mutual

/-- A cell spans a value, by way of containers. --/
inductive Spans (cells : Cells) : Ref → Value → List Ref → Prop
  | scalar {r : Ref} {w : Scalar} (h : cells[r]? = some (.scalar w)) : Spans cells r (.scalar w) []
  | list {r : Ref} {rs : List Ref} {items : List Value} {ks : List Ref} (h : cells[r]? = some (.list rs))
      (hs : SpansAll cells rs items ks) : Spans cells r (.list items) (r :: ks)
  | pair {r a b : Ref} {v w : Value} {k l : List Ref} (h : cells[r]? = some (.pair a b)) (hv : Spans cells a v k)
      (hw : Spans cells b w l) : Spans cells r (.pair v w) (r :: (k ++ l))
  | mapping {r : Ref} {es : List (Ref × Ref)} {entries : List (Value × Value)} {ks : List Ref}
      (h : cells[r]? = some (.mapping es)) (hs : SpansEntries cells es entries ks) :
      Spans cells r (.mapping entries) (r :: ks)
  | set {r : Ref} {rs : List Ref} {members : List Value} {ks : List Ref} (h : cells[r]? = some (.set rs))
      (hs : SpansAll cells rs members ks) : Spans cells r (.set members) (r :: ks)

inductive SpansAll (cells : Cells) : List Ref → List Value → List Ref → Prop
  | nil : SpansAll cells [] [] []
  | cons {r : Ref} {rs : List Ref} {v : Value} {items : List Value} {k l : List Ref} (h : Spans cells r v k)
      (hs : SpansAll cells rs items l) : SpansAll cells (r :: rs) (v :: items) (k ++ l)

inductive SpansEntries (cells : Cells) : List (Ref × Ref) → List (Value × Value) → List Ref → Prop
  | nil : SpansEntries cells [] [] []
  | cons {a b : Ref} {es : List (Ref × Ref)} {v w : Value} {entries : List (Value × Value)} {j k l : List Ref}
      (hk : Spans cells a v j) (hv : Spans cells b w k) (hs : SpansEntries cells es entries l) :
      SpansEntries cells ((a, b) :: es) ((v, w) :: entries) (j ++ (k ++ l))

end

variable {cells cells' : Cells} {r e : Ref} {rs ks : List Ref} {es : List (Ref × Ref)} {v : Value}
  {items : List Value} {entries : List (Value × Value)}

theorem get_of_getElem? {c : Cell} (h : cells[r]? = some c) : cells.get r = c := by
  rw [get, h, Option.getD_some]

theorem getElem?_of_get {c : Cell} (h : cells.get r = c) (hc : c ≠ .scalar .null) : cells[r]? = some c := by
  rw [get] at h
  cases hr : cells[r]? with
  | none =>
    rw [hr] at h
    exact absurd h.symm hc
  | some d =>
    rw [hr] at h
    exact congrArg some h

theorem lt_size_of_getElem? {c : Cell} (h : cells[r]? = some c) : r < cells.size :=
  (Array.getElem?_eq_some_iff.mp h).1

theorem getElem?_push_of_eq_some {c : Cell} (h : cells[r]? = some c) (d : Cell) :
    (Array.push cells d)[r]? = some c := by
  rw [Array.getElem?_push_lt (lt_size_of_getElem? h), ← h, Array.getElem?_eq_getElem]

/-! ### The value of a cell -/

mutual

/-- A cell that spans a value is viewed as it below containers that are not among its own. --/
theorem Spans.view : {r : Ref} → {v : Value} → {ks : List Ref} → Spans cells r v ks → ks.Nodup →
    ∀ (depth : Nat) (above : List Ref), ks.Disjoint above → ks.length < depth → cells.view depth above r = v
  | r, _, _, .scalar h, _, depth + 1, above, _, _ => by
    rw [Cells.view, get_of_getElem? h]
  | r, _, _, .list h hs, hnodup, depth + 1, above, hout, hdepth => by
    obtain ⟨hr, hks⟩ := List.nodup_cons.mp hnodup
    have hrow := hs.view hks depth (r :: above)
      (List.disjoint_cons_right.mpr ⟨hr, (List.disjoint_cons_left.mp hout).2⟩) (by simpa using hdepth)
    rw [Cells.view, get_of_getElem? h]
    simp [Cell.kind?, List.idxOf?_eq_none_iff.mpr (List.disjoint_cons_left.mp hout).1, hrow]
  | r, _, _, .pair (k := ks) (l := ls) h hv hw, hnodup, depth + 1, above, hout, hdepth => by
    obtain ⟨hr, hks⟩ := List.nodup_cons.mp hnodup
    have hbelow : (ks ++ ls).Disjoint (r :: above) :=
      List.disjoint_cons_right.mpr ⟨hr, (List.disjoint_cons_left.mp hout).2⟩
    simp only [List.length_cons, List.length_append] at hdepth
    have hfirst := hv.view (List.nodup_append.mp hks).1 depth (r :: above) (List.disjoint_append_left.mp hbelow).1
      (by omega)
    have hsecond := hw.view (List.nodup_append.mp hks).2.1 depth (r :: above) (List.disjoint_append_left.mp hbelow).2
      (by omega)
    rw [Cells.view, get_of_getElem? h]
    simp [Cell.kind?, List.idxOf?_eq_none_iff.mpr (List.disjoint_cons_left.mp hout).1, hfirst, hsecond]
  | r, _, _, .mapping h hs, hnodup, depth + 1, above, hout, hdepth => by
    obtain ⟨hr, hks⟩ := List.nodup_cons.mp hnodup
    have hrow := hs.view hks depth (r :: above)
      (List.disjoint_cons_right.mpr ⟨hr, (List.disjoint_cons_left.mp hout).2⟩) (by simpa using hdepth)
    rw [Cells.view, get_of_getElem? h]
    simp [Cell.kind?, List.idxOf?_eq_none_iff.mpr (List.disjoint_cons_left.mp hout).1, hrow]
  | r, _, _, .set h hs, hnodup, depth + 1, above, hout, hdepth => by
    obtain ⟨hr, hks⟩ := List.nodup_cons.mp hnodup
    have hrow := hs.view hks depth (r :: above)
      (List.disjoint_cons_right.mpr ⟨hr, (List.disjoint_cons_left.mp hout).2⟩) (by simpa using hdepth)
    rw [Cells.view, get_of_getElem? h]
    simp [Cell.kind?, List.idxOf?_eq_none_iff.mpr (List.disjoint_cons_left.mp hout).1, hrow]

theorem SpansAll.view : {rs : List Ref} → {items : List Value} → {ks : List Ref} → SpansAll cells rs items ks →
    ks.Nodup → ∀ (depth : Nat) (above : List Ref), ks.Disjoint above → ks.length < depth →
    rs.map (cells.view depth above) = items
  | _, _, _, .nil, _, _, _, _, _ => rfl
  | _, _, _, .cons h hs, hnodup, depth, above, hout, hdepth => by
    rw [List.length_append] at hdepth
    rw [List.map_cons, h.view (List.nodup_append.mp hnodup).1 _ _ (List.disjoint_append_left.mp hout).1 (by omega),
      hs.view (List.nodup_append.mp hnodup).2.1 _ _ (List.disjoint_append_left.mp hout).2 (by omega)]

theorem SpansEntries.view : {es : List (Ref × Ref)} → {entries : List (Value × Value)} → {ks : List Ref} →
    SpansEntries cells es entries ks → ks.Nodup → ∀ (depth : Nat) (above : List Ref), ks.Disjoint above →
    ks.length < depth → es.map (fun e => (cells.view depth above e.1, cells.view depth above e.2)) = entries
  | _, _, _, .nil, _, _, _, _, _ => rfl
  | _, _, _, .cons hk hv hs, hnodup, depth, above, hout, hdepth => by
    simp only [List.length_append] at hdepth
    obtain ⟨hjs, hrest, -⟩ := List.nodup_append.mp hnodup
    obtain ⟨hout₁, hout₂⟩ := List.disjoint_append_left.mp hout
    rw [List.map_cons, hk.view hjs _ _ hout₁ (by omega),
      hv.view (List.nodup_append.mp hrest).1 _ _ (List.disjoint_append_left.mp hout₂).1 (by omega),
      hs.view (List.nodup_append.mp hrest).2.1 _ _ (List.disjoint_append_left.mp hout₂).2 (by omega)]

end

mutual

theorem Spans.lt_size : {r : Ref} → {v : Value} → {ks : List Ref} → Spans cells r v ks → ∀ k ∈ ks, k < cells.size
  | _, _, _, .scalar _, _, hk => absurd hk List.not_mem_nil
  | _, _, _, .list h hs, _, hk =>
    (List.mem_cons.mp hk).elim (fun hk => hk ▸ lt_size_of_getElem? h) (hs.lt_size _)
  | _, _, _, .pair h hv hw, _, hk =>
    (List.mem_cons.mp hk).elim (fun hk => hk ▸ lt_size_of_getElem? h) fun hk =>
      (List.mem_append.mp hk).elim (hv.lt_size _) (hw.lt_size _)
  | _, _, _, .mapping h hs, _, hk =>
    (List.mem_cons.mp hk).elim (fun hk => hk ▸ lt_size_of_getElem? h) (hs.lt_size _)
  | _, _, _, .set h hs, _, hk =>
    (List.mem_cons.mp hk).elim (fun hk => hk ▸ lt_size_of_getElem? h) (hs.lt_size _)

theorem SpansAll.lt_size : {rs : List Ref} → {items : List Value} → {ks : List Ref} → SpansAll cells rs items ks →
    ∀ k ∈ ks, k < cells.size
  | _, _, _, .nil, _, hk => absurd hk List.not_mem_nil
  | _, _, _, .cons h hs, _, hk => (List.mem_append.mp hk).elim (h.lt_size _) (hs.lt_size _)

theorem SpansEntries.lt_size : {es : List (Ref × Ref)} → {entries : List (Value × Value)} → {ks : List Ref} →
    SpansEntries cells es entries ks → ∀ k ∈ ks, k < cells.size
  | _, _, _, .nil, _, hk => absurd hk List.not_mem_nil
  | _, _, _, .cons hk' hv hs, _, hk => (List.mem_append.mp hk).elim (hk'.lt_size _) fun hk =>
      (List.mem_append.mp hk).elim (hv.lt_size _) (hs.lt_size _)

end

theorem Spans.ref_lt_size (h : Spans cells r v ks) : r < cells.size := by
  cases h with
  | scalar h | list h _ | pair h _ _ | mapping h _ | set h _ => exact lt_size_of_getElem? h

theorem SpansEntries.key_lt_size : {es : List (Ref × Ref)} → {entries : List (Value × Value)} → {ks : List Ref} →
    SpansEntries cells es entries ks → ∀ e ∈ es, e.1 < cells.size
  | _, _, _, .nil, _, he => absurd he List.not_mem_nil
  | _, _, _, .cons hk _ hs, _, he => (List.mem_cons.mp he).elim (fun h => h ▸ hk.ref_lt_size) (hs.key_lt_size _)

/-- A cell that spans a value without listing a container twice has this value. --/
theorem Spans.value (h : Spans cells r v ks) (hnodup : ks.Nodup) : cells.value r = v := by
  refine h.view hnodup _ _ (List.disjoint_nil_right _) ?_
  have := (hnodup.subperm fun k hk => List.mem_range.mpr (h.lt_size k hk)).length_le
  rw [List.length_range] at this
  omega

/-! ### Changes elsewhere -/

/-- All cells but a container are kept. --/
structure KeepsBut (cells cells' : Cells) (e : Ref) : Prop where
  kept : ∀ r c, r ≠ e → cells[r]? = some c → cells'[r]? = some c
  container : ∀ w, cells[e]? ≠ some (.scalar w)

theorem KeepsBut.trans {cells'' : Cells} (h : KeepsBut cells cells' e) (h' : KeepsBut cells' cells'' e) :
    KeepsBut cells cells'' e :=
  ⟨fun r c hr hc => h'.kept r c hr (h.kept r c hr hc), h.container⟩

theorem keepsBut_push (h : ∀ w, cells[e]? ≠ some (.scalar w)) (c : Cell) : KeepsBut cells (cells.push c) e :=
  ⟨fun _ _ _ hd => getElem?_push_of_eq_some hd c, h⟩

theorem keepsBut_put (h : ∀ w, cells[e]? ≠ some (.scalar w)) (c : Cell) : KeepsBut cells (cells.put e c) e :=
  ⟨fun r d hr hd => by rw [put, Array.getElem?_setIfInBounds_ne (Ne.symm hr), hd], h⟩

mutual

/-- A part that does not list the changed container stays as it is. --/
theorem Spans.frame (h : KeepsBut cells cells' e) : {r : Ref} → {v : Value} → {ks : List Ref} → Spans cells r v ks →
    e ∉ ks → Spans cells' r v ks
  | r, _, _, .scalar (w := w) hc, _ => .scalar (h.kept r _ (fun hr => h.container w (hr ▸ hc)) hc)
  | r, _, _, .list hc hs, hout =>
    .list (h.kept r _ (fun hr => hout (hr ▸ List.mem_cons_self)) hc)
      (hs.frame h fun he => hout (List.mem_cons_of_mem _ he))
  | r, _, _, .pair hc hv hw, hout =>
    .pair (h.kept r _ (fun hr => hout (hr ▸ List.mem_cons_self)) hc)
      (hv.frame h fun he => hout (List.mem_cons_of_mem _ (List.mem_append_left _ he)))
      (hw.frame h fun he => hout (List.mem_cons_of_mem _ (List.mem_append_right _ he)))
  | r, _, _, .mapping hc hs, hout =>
    .mapping (h.kept r _ (fun hr => hout (hr ▸ List.mem_cons_self)) hc)
      (hs.frame h fun he => hout (List.mem_cons_of_mem _ he))
  | r, _, _, .set hc hs, hout =>
    .set (h.kept r _ (fun hr => hout (hr ▸ List.mem_cons_self)) hc)
      (hs.frame h fun he => hout (List.mem_cons_of_mem _ he))

theorem SpansAll.frame (h : KeepsBut cells cells' e) : {rs : List Ref} → {items : List Value} → {ks : List Ref} →
    SpansAll cells rs items ks → e ∉ ks → SpansAll cells' rs items ks
  | _, _, _, .nil, _ => .nil
  | _, _, _, .cons hv hs, hout =>
    .cons (hv.frame h fun he => hout (List.mem_append_left _ he))
      (hs.frame h fun he => hout (List.mem_append_right _ he))

theorem SpansEntries.frame (h : KeepsBut cells cells' e) : {es : List (Ref × Ref)} →
    {entries : List (Value × Value)} → {ks : List Ref} → SpansEntries cells es entries ks → e ∉ ks →
    SpansEntries cells' es entries ks
  | _, _, _, .nil, _ => .nil
  | _, _, _, .cons hk hv hs, hout =>
    .cons (hk.frame h fun he => hout (List.mem_append_left _ he))
      (hv.frame h fun he => hout (List.mem_append_right _ (List.mem_append_left _ he)))
      (hs.frame h fun he => hout (List.mem_append_right _ (List.mem_append_right _ he)))

end

end Cells

/-- A document is a copy of a value: it spans the value and shares no parts. --/
def Document.IsCopyOf (d : Document) (v : Value) : Prop :=
  ∃ ks, d.cells.Spans d.root v ks ∧ ks.Nodup

/-- A copy of a value has this value. --/
theorem Document.IsCopyOf.value {d : Document} {v : Value} (h : d.IsCopyOf v) : d.value = v := by
  obtain ⟨ks, hspans, hnodup⟩ := h
  exact hspans.value hnodup

end Retag

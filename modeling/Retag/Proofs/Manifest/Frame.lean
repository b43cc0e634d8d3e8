import Retag.Proofs.Manifest.Effect
import Retag.Proofs.Manifest.Entry
import Retag.Proofs.Manifest.Stable

/-! What is loaded after a patch. The document agrees with the one that was loaded before, wherever one goes down from the
    root, but for the tag of the addressed entry. -/

namespace Retag

/-! ### Lists in the place of pairs -/

namespace Cells

variable {cells : Cells}

theorem AreBuilt.flat (h : AreBuilt cells) : AreBuilt cells.flat := by
  intro r hr
  have hkeeps : Keeps cells cells.flat := ⟨Nat.le_of_eq (size_flat cells).symm, fun r _ => scalar?_flat cells r⟩
  rw [get_flat]
  have hbuilt := (h r (size_flat cells ▸ hr)).mono hkeeps
  cases hc : cells.get r with
  | pair a b =>
    rw [hc] at hbuilt
    intro p hp
    rcases List.mem_pair.mp hp with rfl | rfl
    · exact hbuilt.1
    · exact hbuilt.2
  | _ =>
    rw [hc] at hbuilt
    exact hbuilt

end Cells

namespace Manifest

open Files Cells

variable {cells cells' : Cells} {d d' : Document} {e r q : Ref} {es es' : List (Ref × Ref)} {s : String}

theorem entriesOf?_flat (cells : Cells) (r : Ref) : entriesOf? cells.flat r = entriesOf? cells r := by
  rw [entriesOf?, entriesOf?, get_flat]
  cases cells.get r <;> rfl

theorem flat_writeTag (cells : Cells) (e : Ref) (s : String) : (writeTag cells e s).flat = writeTag cells.flat e s := by
  unfold writeTag
  rw [entriesOf?_flat]
  cases entriesOf? cells e with
  | none => rfl
  | some es =>
    have hpush : ∀ v : Scalar, ∀ cells : Cells, cells.flat.push (.scalar v) = Cells.flat (cells.push (.scalar v)) :=
      fun v cells => (flat_push cells (.scalar v)).symm
    simp only [flat_put, hpush, insertEntry_flat, size_flat]
    rfl

/-! ### Documents with a written tag -/

theorem keeps_withTag (cells : Cells) (s : String) : Keeps cells (withTag cells s) :=
  (keeps_push cells _).trans (keeps_push _ _)

/-- Writing a tag leaves all cells as they may be. --/
theorem areBuilt_writeTag (hb : AreBuilt cells) (h : entriesOf? cells e = some es) (s : String) :
    AreBuilt (writeTag cells e s) := by
  have hmapping := get_of_entriesOf? h
  have hmore : AreBuilt (withTag cells s) := (hb.push (c := .scalar (.str tagKey)) ⟨.str, tagKey, rfl⟩).push ⟨.str, s, rfl⟩
  have hentries : AreEntries cells es := by
    have := hb.get e
    rwa [hmapping] at this
  have hnone : (withTag cells s).scalar? e = none := by
    rw [Cells.scalar?, get_withTag_of_lt (lt_size_of_entriesOf? h), hmapping]
  rw [writeTag_eq h]
  refine hmore.put hnone rfl ((hentries.mono (keeps_withTag cells s)).insertEntry ?_ ?_ ?_)
  · rw [size_withTag]
    exact Nat.lt_add_of_pos_right (by decide)
  · rw [Cells.scalar?, get_withTag_key]
    rfl
  · rw [size_withTag]
    exact Nat.lt_succ_self _

/-! ### Documents that agree but for a tag -/

/-- The entries of two mappings agree, given which parts do, but for the tag: it has a new text in its old place, or comes
    last if there was none. --/
inductive Retagged (R : Ref → Ref → Prop) (cells cells' : Cells) (s : String) :
    List (Ref × Ref) → List (Ref × Ref) → Prop
  /-- There was no tag. --/
  | added {k' v' : Ref} (hk : cells'.get k' = .scalar (.str tagKey)) (hv : cells'.get v' = .scalar (.str s)) :
      Retagged R cells cells' s [] [(k', v')]
  /-- The first tag gets the new text. --/
  | replaced {k v k' v' : Ref} {es es' : List (Ref × Ref)} (hk : cells.get k = .scalar (.str tagKey)) (hkey : R k k')
      (hv : cells'.get v' = .scalar (.str s)) (h : List.Forall₂ (fun e e' => R e.1 e'.1 ∧ R e.2 e'.2) es es') :
      Retagged R cells cells' s ((k, v) :: es) ((k', v') :: es')
  /-- Any other entry before it is as it was. --/
  | kept {k v k' v' : Ref} {es es' : List (Ref × Ref)} (hk : cells.get k ≠ .scalar (.str tagKey)) (hkey : R k k')
      (hv : R v v') (h : Retagged R cells cells' s es es') : Retagged R cells cells' s ((k, v) :: es) ((k', v') :: es')

/-- Two cells match, given which of their parts do: they agree, but that the members of a set may be in another order. --/
inductive Matches (R : Ref → Ref → Prop) : Cell → Cell → Prop
  | same {c c' : Cell} (h : Cell.Agrees R c c') : Matches R c c'
  | set {members ms members' : List Ref} (h : List.Forall₂ R members ms) (hperm : members'.Perm ms) :
      Matches R (.set members) (.set members')

/-- A document agrees with another but for the tag of an entry: some relation holds of their roots; it holds of the parts
    of all cells that it relates, and these are of the same kind; and where the entry is met there is the same mapping
    with the tag as a text. --/
def AgreesButTag (d d' : Document) (entry : Ref) (s : String) : Prop :=
  ∃ R : Ref → Ref → Prop, R d.root d'.root ∧
    (∀ r q, R r q → r ≠ entry → Matches R (d.cells.get r) (d'.cells.get q)) ∧
    ∀ q, R entry q → ∃ es es', d.cells.get entry = .mapping es ∧ d'.cells.get q = .mapping es' ∧
      Retagged R d.cells d'.cells s es es'

/-- Entries that agree with those among which a tag was inserted agree with these but for the tag. --/
theorem retagged_of_insertEntry {R : Ref → Ref → Prop} (hes : ∀ e ∈ es, e.1 < cells.size ∧ e.2 < cells.size)
    (hkey : ∀ q, R cells.size q → cells'.get q = .scalar (.str tagKey))
    (htext : ∀ q, R (cells.size + 1) q → cells'.get q = .scalar (.str s))
    (h : List.Forall₂ (fun e e' => R e.1 e'.1 ∧ R e.2 e'.2)
      ((withTag cells s).insertEntry es cells.size (cells.size + 1)) es') :
    Retagged (fun r q => r < cells.size ∧ R r q) cells cells' s es es' := by
  induction es generalizing es' with
  | nil =>
    cases h with
    | cons he h =>
      cases h
      exact .added (hkey _ he.1) (htext _ he.2)
  | cons e es ih =>
    obtain ⟨hk, hv⟩ := hes e List.mem_cons_self
    have hsame : (withTag cells s).sameKey e.1 cells.size = true ↔ cells.get e.1 = .scalar (.str tagKey) := by
      rw [sameKey_of_str (Nat.ne_of_lt hk) (by rw [Cells.scalar?, get_withTag_key]), isText_iff_get, get_withTag_of_lt hk]
    have hrest : ∀ e ∈ es, e.1 < cells.size ∧ e.2 < cells.size := fun e he => hes e (List.mem_cons_of_mem _ he)
    rw [insertEntry] at h
    split at h
    · rename_i htag
      cases h with
      | cons he h =>
        have hentries := @forall₂_entries_and Ref Ref R (· < cells.size) _ _ h hrest
        exact .replaced (hsame.mp htag) ⟨hk, he.1⟩ (htext _ he.2) hentries
    · rename_i htag
      cases h with
      | cons he h => exact .kept (fun hc => htag (hsame.mpr hc)) ⟨hk, he.1⟩ ⟨hv, he.2⟩ (ih hrest h)

/-- A document that agrees with one in which a tag was written agrees but for this tag with the one before. --/
theorem agreesButTag_of_agrees (hb : AreBuilt d.cells) (hroot : d.root < d.cells.size)
    (h : entriesOf? d.cells e = some es) (hd : d'.Agrees ⟨writeTag d.cells e s, d.root⟩) : AgreesButTag d d' e s := by
  obtain ⟨R, hR, hagrees⟩ := hd
  have hmapping := get_of_entriesOf? h
  have hlt := lt_size_of_entriesOf? h
  have hflip : ∀ r q, R q r → Cell.Agrees (fun r q => R q r) ((writeTag d.cells e s).get r) (d'.cells.get q) :=
    fun r q hr => (hagrees q r hr).flip
  -- The two new texts are read as what they are.
  have hscalar : ∀ {r : Ref} {v : Scalar}, r ≠ e → (withTag d.cells s).get r = .scalar v →
      ∀ q, R q r → d'.cells.get q = .scalar v := by
    intro r v hne hv q hq
    have := hflip r q hq
    rw [writeTag_eq h, get_put_ne hne, hv] at this
    cases hc : d'.cells.get q <;> rw [hc] at this <;> cases this
    rfl
  refine ⟨fun r q => r < d.cells.size ∧ R q r, ⟨hroot, hR⟩, fun r q hr hne => ?_, fun q hq => ?_⟩
  · have := hflip r q hr.2
    rw [writeTag_eq h, get_put_ne hne, get_withTag_of_lt hr.1] at this
    exact .same (this.and_of_parts (hb.get r).lt_size)
  · have := hflip e q hq.2
    rw [writeTag_eq h, get_put_self (by rw [size_withTag]; exact Nat.lt_add_right 2 hlt)] at this
    cases hc : d'.cells.get q with
    | mapping es' =>
      rw [hc] at this
      cases this with
      | mapping hrow =>
        have hentries : AreEntries d.cells es := by
          have := hb.get e
          rwa [hmapping] at this
        refine ⟨es, es', hmapping, rfl, retagged_of_insertEntry ?_ ?_ ?_ hrow⟩
        · exact fun e he => ⟨hentries.keys.lt _ (List.mem_map_of_mem he), hentries.lt e he⟩
        · exact hscalar (Nat.ne_of_gt hlt) (get_withTag_key d.cells s)
        · exact hscalar (Nat.ne_of_gt (Nat.lt_succ_of_lt hlt)) (get_withTag_text d.cells s)
    | _ =>
      rw [hc] at this
      cases this

section

variable [Host]

theorem Matches.arranged {R : Ref → Ref → Prop} {c c' : Cell} (h : Matches R c c') (cells : Cells) :
    Matches R c (c'.arranged cells) := by
  cases h with
  | same h =>
    cases h with
    | set h => exact .set h (Host.arrange_perm _ _)
    | scalar v => exact .same (.scalar v)
    | list h => exact .same (.list h)
    | pair ha hb => exact .same (.pair ha hb)
    | mapping h => exact .same (.mapping h)
  | set h hperm => exact .set h ((Host.arrange_perm _ _).trans hperm)

omit [Host] in
theorem Retagged.mono {R : Ref → Ref → Prop} {cells'' : Cells} (h : Retagged R cells cells' s es es')
    (hscalar : ∀ r v, cells'.get r = .scalar v → cells''.get r = .scalar v) : Retagged R cells cells'' s es es' := by
  induction h with
  | added hk hv => exact .added (hscalar _ _ hk) (hscalar _ _ hv)
  | replaced hk hkey hv h => exact .replaced hk hkey (hscalar _ _ hv) h
  | kept hk hkey hv _ ih => exact .kept hk hkey hv ih

/-- The order of the members of sets makes no difference to what agrees. --/
theorem AgreesButTag.arranged (h : AgreesButTag d d' e s) : AgreesButTag d d'.arranged e s := by
  obtain ⟨R, hroot, hrest, hentry⟩ := h
  refine ⟨R, hroot, fun r q hr hne => ?_, fun q hq => ?_⟩
  · rw [Document.get_arranged]
    exact (hrest r q hr hne).arranged d'.cells
  · obtain ⟨es, es', hes, hes', htags⟩ := hentry q hq
    refine ⟨es, es', hes, ?_, htags.mono fun r v hv => ?_⟩
    · rw [Document.get_arranged, hes']
      rfl
    · rw [Document.get_arranged, hv]
      rfl

end

/-! ### Loading after a patch -/

/-- Where an entry is addressed, the whole and the entry are mappings. --/
theorem entriesOf?_of_locate {selector : Option String} {slot : Slot} (h : locate d selector = .ok slot) :
    (∃ es, entriesOf? d.cells d.root = some es) ∧ ∃ es, entriesOf? d.cells slot.cell = some es := by
  obtain ⟨items, hitems, hselect⟩ := bind_eq_ok.mp h
  refine ⟨?_, ?_⟩
  · cases hroot : entriesOf? d.cells d.root with
    | some es => exact ⟨es, rfl⟩
    | none => simp [images, hroot] at hitems
  · cases selector with
    | none =>
      cases items with
      | nil => cases hselect
      | cons r items =>
        simp only [select] at hselect
        split at hselect
        · rename_i hsome
          cases hselect
          exact Option.isSome_iff_exists.mp hsome
        · cases hselect
    | some name =>
      simp only [select] at hselect
      split at hselect
      · rename_i i hi
        cases hselect
        obtain ⟨hlt, hnamed, -⟩ := List.findIdx?_eq_some_iff_getElem.mp hi
        rw [List.getElem?_eq_getElem hlt, Option.getD_some]
        unfold isNamed at hnamed
        split at hnamed
        · rename_i es hes
          exact ⟨es, hes⟩
        · cases hnamed
      · cases hselect

/-- A document in which a tag was written is not null. --/
theorem isNull_writeTag (hroot : entriesOf? d.cells d.root = some es) (he : entriesOf? d.cells e = some es') (s : String) :
    (Document.mk (writeTag d.cells e s) d.root).isNull = false := by
  have hmapping : ∃ es, (writeTag d.cells e s).get d.root = .mapping es := by
    rw [writeTag_eq he]
    have hlt := lt_size_of_entriesOf? hroot
    by_cases hre : d.root = e
    · rw [← hre]
      exact ⟨_, get_put_self (by rw [size_withTag]; exact Nat.lt_add_right 2 hlt) _⟩
    · rw [get_put_ne hre, get_withTag_of_lt hlt]
      exact ⟨es, get_of_entriesOf? hroot⟩
  obtain ⟨es, hes⟩ := hmapping
  rw [Document.isNull, hes]
  rfl

variable {fault : Option Fault} {t : FileTree} {request : Request} {p : Patched}

/-- After a request that succeeds and is no dry run, the manifest can be loaded again. If the tag was as wanted already,
    the same document comes; if not, and if the document with the new tag lasts, one that agrees at every place with the
    document that was loaded before, its pairs being lists, but for the tag of the addressed entry. --/
theorem patch_loads_again [FairHost] (ht : t.HasNames) (h : (patch fault t request).result = .ok p)
    (hdry : request.dryRun = false) :
    let path := Path.ofText request.path
    let u := (patch fault t request).tree
    ∃ d slot tag, load none t path = .ok d ∧ locate d request.selector = .ok slot ∧
      Tag.ofValue request.version = .ok tag ∧
      (p.changed = false → load none u path = .ok d ∧ isText (tagValue d slot.cell) tag.text = true) ∧
      (p.changed = true → (Document.mk (writeTag d.cells slot.cell tag.text) d.root).IsLasting →
        ∃ d', load none u path = .ok d' ∧ AgreesButTag d.flat d' slot.cell tag.text) := by
  intro path u
  have hsound := patch_eq_of_ok h
  rw [hsound] at h
  obtain ⟨tag, found, htag, hfound, hchanged, hkept, -⟩ := patch_eq_ok h
  obtain ⟨hload, slot, hslot, -, hvalue⟩ := find_eq_ok hfound
  refine ⟨found.document, slot, tag, hload, hslot, htag, fun hsame => ⟨?_, ?_⟩, fun hnew hlasts => ?_⟩
  · rwa [show u = t from (congrArg Outcome.tree hsound).trans (hkept (.inl hsame))]
  · have hcurrent := hchanged.symm.trans hsame
    rwa [Bool.not_eq_false', hvalue] at hcurrent
  · obtain ⟨l, content, mode, d, slot', tag', bytes, hnull, hl, hx, hdecode, hslot', htag', hbytes, htree⟩ :=
      patch_writes ht h hnew hdry
    -- The request as it was found and the request as it was written are about one document, entry and tag.
    have hload' : load none t path = .ok d := by
      obtain ⟨_, l', content', mode', hl', hx', hdecode'⟩ := find_of_load hload
      obtain rfl := Except.ok.inj (hl.symm.trans hl')
      obtain rfl := (Node.file.inj (Option.some.inj (hx.symm.trans hx'))).1
      rw [hload, ← hdecode', hdecode]
    obtain rfl := Except.ok.inj (hload.symm.trans hload')
    obtain rfl := Except.ok.inj (hslot.symm.trans hslot')
    obtain rfl := Except.ok.inj (htag.symm.trans htag')
    obtain ⟨⟨es, hroot⟩, es', hentry⟩ := entriesOf?_of_locate hslot
    obtain ⟨hb, -⟩ := areBuilt_of_decode hdecode
    obtain ⟨d', hd', hmirrors⟩ := decode_of_isLasting (areBuilt_writeTag hb hentry tag.text)
      (isNull_writeTag hroot hentry tag.text) hlasts hbytes path.text
    refine ⟨d'.arranged, ?_, (agreesButTag_of_agrees hb.flat ?_ ((entriesOf?_flat _ _).trans hentry) ?_).arranged⟩
    · rw [show u = t.put l (.file bytes mode) from (congrArg Outcome.tree hsound).trans htree]
      simp only [load, contentOf_put hnull hl hx, ok_bind, path, hd']
    · exact lt_size_of_entriesOf? ((entriesOf?_flat _ _).trans hroot)
    · have hagrees := hmirrors.agrees
      rwa [Document.flat, flat_writeTag] at hagrees

/-- A mapping that is shared has its new tag wherever it is met. --/
theorem patch_loads_again_shared :
    let _ : FairHost := .ample
    let t : FileTree := { nodes := [(["k.yaml"],
      .file (Text.encode "a: &x {name: n}\nimages: [*x]\n".toList) 0o644)] }
    let request : Request := { version := .str "b", path := "k.yaml" }
    (patch none t request).result = .ok ⟨"k.yaml", none, true⟩ ∧
      ∃ d d', load none t (.ofText "k.yaml") = .ok d ∧
        load none (patch none t request).tree (.ofText "k.yaml") = .ok d' ∧ AgreesButTag d d' 2 "b" := by
  intro host t request
  let d : Document := ⟨#[.mapping [(1, 2), (3, 4)], .scalar (.str "a"), .mapping [(5, 6)], .scalar (.str "images"),
    .list [2], .scalar (.str "name"), .scalar (.str "n")], 0⟩
  have h : (patch none t request).result = .ok ⟨"k.yaml", none, true⟩ := by decide +kernel
  have hload : load none t (.ofText "k.yaml") = .ok d := by decide +kernel
  obtain ⟨d₁, slot, tag, hd₁, hslot, htag, -, hagain⟩ :=
    patch_loads_again (fun _ hmem => absurd hmem List.not_mem_nil) h rfl
  obtain rfl := Except.ok.inj (hload.symm.trans hd₁)
  have hlocate : locate d none = .ok ⟨0, 2⟩ := by decide +kernel
  obtain rfl := Except.ok.inj (hlocate.symm.trans hslot)
  have htext : tag.text = "b" := by
    have hb : (Tag.ofValue (.str "b")).map Tag.text = .ok "b" := by decide +kernel
    rw [show Tag.ofValue (.str "b") = .ok tag from htag, map_ok] at hb
    exact Except.ok.inj hb
  have hcells : writeTag d.cells 2 "b" = #[.mapping [(1, 2), (3, 4)], .scalar (.str "a"), .mapping [(5, 6), (7, 8)],
      .scalar (.str "images"), .list [2], .scalar (.str "name"), .scalar (.str "n"), .scalar (.str "newTag"),
      .scalar (.str "b")] := by decide +kernel
  have hflat : d.flat = d := by decide +kernel
  have hlasts : (Document.mk (writeTag d.cells 2 "b") d.root).IsLasting := by
    refine Document.isLasting_of_scalars fun v hv => ?_
    simp only [hcells, List.mem_toArray, List.mem_cons, Cell.scalar.injEq, reduceCtorEq, List.not_mem_nil, or_false,
      false_or] at hv
    rcases hv with rfl | rfl | rfl | rfl | rfl | rfl
    all_goals
      refine ⟨by decide, by decide, fun tag text literal simple hform => ?_⟩
      cases hform
      cases simple <;> decide +kernel
  rw [htext, hflat] at hagain
  obtain ⟨d', hd', hagrees⟩ := hagain rfl hlasts
  exact ⟨h, d, d', hload, hd', hagrees⟩

end Manifest

end Retag

import Retag.Proofs.Manifest.Reread
import Retag.Proofs.Manifest.Saved
import Retag.Proofs.Markup.Built
import Retag.Proofs.Markup.Flat

/-! Manifests that are loaded and saved again. What is loaded can be written and read again, unless a set in it has
    several members, single quotes lose one of its line ends, two of its keys are no numbers, or a text between double
    quotes does not fit where it stands; and then the same bytes are written for what is read, round after round. -/

namespace Retag

open Markup

/-! ### Documents that last -/

namespace Cells

variable {cells : Cells} {r s k : Ref}

/-- A cell is no text that single quotes do not keep. --/
def IsKept (cells : Cells) (r : Ref) : Prop :=
  ∀ v, cells.get r = .scalar v → v.IsKept

/-- A cell is the number that is no number. --/
def IsNan (cells : Cells) (r : Ref) : Prop :=
  cells.get r = .scalar (.float .nan)

/-- The cells of a cell that are compared as keys. --/
def keys (cells : Cells) (r : Ref) : List Ref :=
  match cells.get r with
  | .mapping entries => entries.map Prod.fst
  | .set members => members
  | _ => []

/-- What is no number is at most one of the keys of a cell. --/
def HasOneNan (cells : Cells) (r : Ref) : Prop :=
  (cells.keys r).Pairwise fun k l => ¬(cells.IsNan k ∧ cells.IsNan l)

end Cells

/-- A document that is the same when it is written and read again, but for the order in its sets: its texts are kept, no
    two keys of a mapping are no numbers, and its texts between double quotes fit where they stand. --/
structure Document.IsLasting (d : Document) : Prop where
  kept : d.cells.All d.cells.IsKept d.root
  nan : d.cells.All d.cells.HasOneNan d.root
  fits : ∀ o, Outline.ofDocument d = .ok o → Outline.Fits none .root true o

namespace Cells

variable {cells : Cells} {r s k : Ref}

/-- Scalars that differ as keys are apart, unless both are no numbers. --/
theorem isApart_of_sameKey (hr : (cells.scalar? r).isSome) (hs : (cells.scalar? s).isSome)
    (h : cells.sameKey r s = false) (hnan : ¬(cells.IsNan r ∧ cells.IsNan s)) : cells.IsApart r s := by
  obtain ⟨v, hv⟩ := Option.isSome_iff_exists.mp hr
  obtain ⟨w, hw⟩ := Option.isSome_iff_exists.mp hs
  simp only [sameKey, hv, hw, Bool.or_eq_false_iff] at h
  rw [scalar?_eq_some_iff] at hv hw
  refine ⟨v, w, hv, hw, h.2, ?_⟩
  rintro rfl
  by_cases hvn : v = .float .nan
  · subst hvn
    exact hnan ⟨hv, hw⟩
  · cases h.2.symm.trans (Scalar.same_self hvn)

theorem get_of_scalar?_isSome (h : (cells.scalar? r).isSome) : ∃ v, cells.get r = .scalar v := by
  obtain ⟨v, hv⟩ := Option.isSome_iff_exists.mp h
  exact ⟨v, scalar?_eq_some_iff.mp hv⟩

theorem IsApart.flat (h : cells.IsApart r s) : cells.flat.IsApart r s := by
  obtain ⟨v, w, hv, hw, hsame, hne⟩ := h
  exact ⟨v, w, by rw [get_flat, hv]; rfl, by rw [get_flat, hw]; rfl, hsame, hne⟩

/-- The keys of a cell that is as it may be are apart, unless there are several that are no numbers. --/
theorem AreKeys.isSound {ks : List Ref} (h : AreKeys cells ks)
    (hnan : ks.Pairwise fun k l => ¬(cells.IsNan k ∧ cells.IsNan l)) :
    (∀ k ∈ ks, (cells.flat.get k).kind? = none) ∧ ks.Pairwise cells.flat.IsApart := by
  refine ⟨fun k hk => ?_, (h.apart.and hnan).imp_of_mem fun {k l} hk hl hkl => ?_⟩
  · obtain ⟨v, hv⟩ := get_of_scalar?_isSome (h.scalar k hk)
    rw [get_flat, hv]
    rfl
  · exact (isApart_of_sameKey (h.scalar k hk) (h.scalar l hl) hkl.1 hkl.2).flat

/-- What is written for a cell itself gives the cell again. --/
theorem IsBuilt.isSoundCell (h : cells.IsBuilt (cells.get r)) (hnan : cells.HasOneNan r) : IsSoundCell cells.flat r := by
  unfold HasOneNan keys at hnan
  unfold IsSoundCell
  rw [get_flat]
  cases hc : cells.get r with
  | scalar v =>
    rw [hc] at h
    exact fun tag text literal hform => readText_scalarForm h hform
  | list items => trivial
  | pair a b => trivial
  | mapping entries =>
    rw [hc] at h hnan
    obtain ⟨hscalar, hapart⟩ := AreKeys.isSound h.keys hnan
    exact ⟨fun e he => hscalar _ (List.mem_map_of_mem he), List.pairwise_map.mp hapart⟩
  | set members =>
    rw [hc] at h hnan
    exact AreKeys.isSound h hnan

theorem isClearKey_flat (hb : AreBuilt cells) (hk : (cells.scalar? k).isSome) (hkept : cells.IsKept k) :
    IsClearKey cells.flat k := by
  obtain ⟨v, hv⟩ := get_of_scalar?_isSome hk
  have hloaded := hb.get k
  rw [hv] at hloaded
  exact ⟨v, by rw [get_flat, hv]; rfl, fun tag text literal hform _ =>
    isClear_of_isLoaded hloaded (hkept v hv) hform true⟩

/-- What is written for a cell itself can be read again. --/
theorem isClearCell_flat (hb : AreBuilt cells) (hkept : cells.All cells.IsKept r) :
    IsClearCell cells.flat r := by
  have hself := hb.get r
  have hpart : ∀ q ∈ parts (cells.get r), cells.IsKept q := fun q hq => (hkept.part hq).self
  unfold IsClearCell
  rw [get_flat]
  cases hc : cells.get r with
  | scalar v =>
    rw [hc] at hself
    exact fun tag text literal hform => isClear_of_isLoaded hself (hkept.self v hc) hform false
  | list items => trivial
  | pair a b => trivial
  | mapping entries =>
    rw [hc] at hself hpart
    refine fun e he => isClearKey_flat hb (hself.keys.scalar _ (List.mem_map_of_mem he)) (hpart _ ?_)
    exact fst_mem_parts he
  | set members =>
    rw [hc] at hself hpart
    exact fun m hm => isClearKey_flat hb (hself.scalar m hm) (hpart m hm)

end Cells

/-- A document without sets of several members in its cells. --/
theorem Cells.all_isOrdered {cells : Cells} (h : ∀ members, Cell.set members ∈ cells → members.length ≤ 1)
    (r : Ref) : cells.All cells.IsOrdered r := by
  intro s _ members hs
  rcases cells.get_mem_or_null s with hmem | hnull
  · exact h members (hs ▸ hmem)
  · cases hs.symm.trans hnull

theorem Cells.isOrdered_flat {cells : Cells} {r : Ref} : cells.flat.IsOrdered r ↔ cells.IsOrdered r := by
  rw [IsOrdered, IsOrdered, get_flat]
  cases cells.get r <;> simp [Cell.flat]

variable {d : Document}

/-- A document that is built and that lasts can be written and read again, with its pairs as lists. --/
theorem Document.isStable_flat (hb : d.cells.AreBuilt) (hd : d.IsLasting) : IsStable d.flat where
  clear := fun s hs => Cells.isClearCell_flat hb fun q hq =>
    hd.kept q ((Cells.reaches_flat.mp hs).trans hq)
  sound := fun s hs => (hb.get s).isSoundCell (hd.nan s (Cells.reaches_flat.mp hs))
  fits := fun o ho => hd.fits o (by rwa [Outline.ofDocument_flat] at ho)

/-- A scalar that lasts wherever it stands: it is kept, is a number if it is a floating-point number, and fits if it
    stands between double quotes. --/
structure Scalar.Lasts (v : Scalar) : Prop where
  kept : v.IsKept
  number : v ≠ .float .nan
  fits : ∀ tag text literal simple, scalarForm v = .ok (tag, text, literal) →
    Outline.IsQuoted simple tag text literal → keepsIdentity (.scalar v) = false ∧
      Outline.quotedLength none tag text.points ≤ 1024 ∧ Page.foldsTwice text.points = false

theorem Scalar.lasts_null : Lasts .null := by
  refine ⟨by decide, by decide, fun tag text literal simple hform => ?_⟩
  cases hform
  cases simple <;> decide +kernel

theorem Document.lasts_of_get (h : ∀ v, Cell.scalar v ∈ d.cells → v.Lasts) {r : Ref} {v : Scalar}
    (hv : d.cells.get r = .scalar v) : v.Lasts := by
  rcases d.cells.get_mem_or_null r with hmem | hnull
  · exact h v (hv ▸ hmem)
  · cases hv.symm.trans hnull
    exact Scalar.lasts_null

/-- A document whose scalars all last does so itself. --/
theorem Document.isLasting_of_scalars (h : ∀ v, Cell.scalar v ∈ d.cells → v.Lasts) : d.IsLasting where
  kept := fun _ _ _ hv => (lasts_of_get h hv).kept
  nan := fun _ _ => List.pairwise_of_forall fun _ _ hkl => (lasts_of_get h hkl.1).number rfl
  fits := fun o ho => by
    rw [← Outline.ofDocument_flat] at ho
    have hflat : ∀ r v, d.flat.cells.get r = .scalar v → d.cells.get r = .scalar v := by
      intro r v hv
      rw [Document.flat, Cells.get_flat] at hv
      cases hc : d.cells.get r <;> rw [hc] at hv <;> cases hv
      rfl
    have hpairs : d.flat.cells.All (IsNoPair d.flat.cells) d.flat.root := by
      intro r _ a b hab
      rw [Document.flat, Cells.get_flat] at hab
      cases hc : d.cells.get r <;> rw [hc] at hab <;> cases hab
    obtain ⟨names, hshows⟩ := Outline.shows_of_ofDocument ho hpairs
    exact hshows.fits fun r _ v tag text literal simple hv => (lasts_of_get h (hflat r v hv)).fits tag text literal simple

namespace Manifest

open Files

variable {path : Path} {t t₁ : FileTree} {l : Location} {bytes : List UInt8}

theorem encode_flat [FairHost] (h : encode d = .ok bytes) : encode d.flat = .ok bytes := by
  obtain ⟨o, ho⟩ := exists_outline h
  exact encode_of_outline (by rw [Outline.ofDocument_flat, ho]) ho h

theorem areBuilt_of_parse {s : Text.Source} (h : Markup.parse s = .ok (some d)) : d.cells.AreBuilt := by
  obtain ⟨tree, -, hrest⟩ := bind_eq_ok.mp h
  cases tree with
  | none => cases hrest
  | some tree =>
    obtain ⟨d', hgraph, hsome⟩ := bind_eq_ok.mp hrest
    cases hsome
    exact Graph.areBuilt_document hgraph

/-- What is decoded is built, and is not null. --/
theorem areBuilt_of_decode [Host] {name : String} {charset : Charset} (h : decode name charset bytes = .ok d) :
    d.cells.AreBuilt ∧ d.isNull = false := by
  have hempty : Document.empty.cells.AreBuilt := by
    intro r hr
    obtain rfl := Nat.lt_one_iff.mp hr
    exact Cells.areEntries_nil
  unfold decode at h
  dsimp only at h
  split at h
  · cases h
  · cases h
    exact ⟨hempty, rfl⟩
  · rename_i d' hread
    split at h
    · cases h
      exact ⟨hempty, rfl⟩
    · rename_i hnull
      cases h
      refine ⟨?_, by simpa using hnull⟩
      unfold Markup.read at hread
      split at hread
      · obtain ⟨d?, hparse, hsome⟩ := map_eq_ok.mp hread
        obtain ⟨parsed, rfl, rfl⟩ := Option.map_eq_some_iff.mp hsome
        exact Document.areBuilt_arranged (areBuilt_of_parse hparse)
      · cases hread

/-- The content of a document that is built and lasts is read as a document that mirrors it, with lists for its pairs and
    its sets in the order of the host. --/
theorem decode_of_isLasting [FairHost] (hb : d.cells.AreBuilt) (hnull : d.isNull = false) (hd : d.IsLasting)
    (he : encode d = .ok bytes) (name : String) :
    ∃ d' : Document, decode name .standard bytes = .ok d'.arranged ∧ d'.Mirrors d.flat :=
  decode_of_encode (encode_flat he) (d.isStable_flat hb hd) (by rw [Document.isNull_flat, hnull]) name

/-- If no set has several members, the document that is read has the same content. --/
theorem encode_of_mirrors_flat [FairHost] {d' : Document} (hsets : d.cells.All d.cells.IsOrdered d.root)
    (h : d'.Mirrors d.flat) (he : encode d = .ok bytes) : encode d'.arranged = .ok bytes := by
  have hordered : d.flat.cells.All d.flat.cells.IsOrdered d.flat.root := fun s hs =>
    Cells.isOrdered_flat.mpr (hsets s (Cells.reaches_flat.mp hs))
  exact encode_of_mirrors (h.arranged hordered) (encode_flat he)

/-! ### Rounds of loading and saving -/

section

variable [Host]

/-- The tree after the manifest of a path was loaded and saved. --/
def rewrite (path : Path) (t : FileTree) : Except Failure FileTree := do
  let d ← load none t path
  let saved := save none t path d
  saved.result.map fun _ => saved.tree

/-- The tree after a number of such rounds. --/
def rewrites (path : Path) : Nat → FileTree → Except Failure FileTree
  | 0, t => .ok t
  | n + 1, t => do rewrites path n (← rewrite path t)

theorem rewrites_of_rewrite (h : rewrite path t = .ok t) (n : Nat) : rewrites path n t = .ok t := by
  induction n with
  | zero => rfl
  | succ n ih => rw [rewrites, h, ok_bind, ih]

end

/-- What is written for a document that was loaded, that lasts and that has no set of several members, is loaded again,
    and the same bytes are written for it; so after the first round nothing changes any more. --/
theorem rewrites_stable [FairHost] (ht : t.HasNames) (hload : load none t path = .ok d) (hd : d.IsLasting)
    (hsets : d.cells.All d.cells.IsOrdered d.root) (hsave : save none t path d = ⟨.ok l, t₁, []⟩) :
    (∃ d', load none t₁ path = .ok d' ∧ save none t₁ path d' = ⟨.ok l, t₁, []⟩) ∧
      ∀ n, rewrites path (n + 1) t = .ok t₁ := by
  obtain ⟨hnull, l', content, mode, hl, hx, hdecode⟩ := find_of_load hload
  obtain ⟨hb, hroot⟩ := areBuilt_of_decode hdecode
  obtain ⟨rfl, made, hmade⟩ := made_of_save hl hsave
  obtain ⟨bytes, he, rfl⟩ := tree_of_save ht hnull hl hx hsave
  obtain ⟨d', hdecode', hmirrors⟩ := decode_of_isLasting hb hroot hd he path.text
  have he' := encode_of_mirrors_flat hsets hmirrors he
  have hload' : load none (t.put l (.file bytes mode)) path = .ok d'.arranged := by
    simp only [load, contentOf_put hnull hl hx, ok_bind, hdecode']
  -- The second save finds the tree as the first one did, and puts the same file where it is.
  have hsave' : save none (t.put l (.file bytes mode)) path d'.arranged = ⟨.ok l, t.put l (.file bytes mode), []⟩ := by
    have hnames : (t.put l (.file bytes mode)).HasNames := by
      rw [FileTree.HasNames, FileTree.here_put]
      exact ht
    obtain ⟨hfind, hget⟩ := @find_put_of_file t path l content bytes mode mode hl hx
    obtain ⟨made', hmade'⟩ := FileTree.makeTemporary_put_of_file hx hmade bytes
    rw [save_of_made hnames hnull hfind hget hmade' he', FileTree.put_put]
  refine ⟨⟨d'.arranged, hload', hsave'⟩, fun n => ?_⟩
  have hagain : rewrite path (t.put l (.file bytes mode)) = .ok (t.put l (.file bytes mode)) := by
    rw [rewrite, hload', ok_bind, hsave', map_ok]
  rw [rewrites, rewrite, hload, ok_bind, hsave, map_ok, ok_bind, rewrites_of_rewrite hagain]

/-- A list that holds itself, a day and ordered pairs are written with an anchor and without tags, and stay so. --/
theorem rewrites_stable_cycle :
    let _ : FairHost := .ample
    let t : FileTree := { nodes := [(["k.yaml"],
      .file (Text.encode "a: &x [2024-01-01, *x]\nb: !!omap [c: ~]\n".toList) 0o644)] }
    let t₁ : FileTree := { nodes := [(["k.yaml"],
      .file (Text.encode "a: &id001\n- 2024-01-01\n- *id001\nb:\n- - c\n  - null\n".toList) 0o644)] }
    ∀ n, rewrites ⟨.here, ["k.yaml"]⟩ (n + 1) t = .ok t₁ := by
  intro host t t₁
  let d : Document := ⟨#[.mapping [(1, 2), (3, 4)], .scalar (.str "a"), .list [5, 2], .scalar (.str "b"), .list [8],
    .scalar (.date ⟨2024, 1, 1, by decide⟩), .scalar (.str "c"), .scalar .null, .pair 6 7], 0⟩
  have hnames : t.HasNames := fun _ hmem => absurd hmem List.not_mem_nil
  have hload : load none t ⟨.here, ["k.yaml"]⟩ = .ok d := by decide +kernel
  have hencode : encode d =
      .ok (Text.encode "a: &id001\n- 2024-01-01\n- *id001\nb:\n- - c\n  - null\n".toList) := by decide +kernel
  have hfind : t.find ⟨.here, ["k.yaml"]⟩ = .ok ["k.yaml"] := by decide +kernel
  have hroom : t.HasRoom ["k.yaml"] := ⟨by decide +kernel, by decide +kernel, 0, by decide, by decide +kernel⟩
  obtain ⟨made, hmade⟩ := FileTree.makeTemporary_of_hasRoom hroom
  have hsave : save none t ⟨.here, ["k.yaml"]⟩ d = ⟨.ok ["k.yaml"], t₁, []⟩ :=
    save_of_made hnames rfl hfind rfl hmade hencode
  have hsets : d.cells.All d.cells.IsOrdered d.root := Cells.all_isOrdered (by simp [d]) _
  refine (rewrites_stable hnames hload (Document.isLasting_of_scalars fun v hv => ?_) hsets hsave).2
  simp only [d, List.mem_toArray, List.mem_cons, Cell.scalar.injEq, reduceCtorEq, List.not_mem_nil, or_false, false_or] at hv
  rcases hv with rfl | rfl | rfl | rfl | rfl
  all_goals
    refine ⟨by decide, by decide, fun tag text literal simple hform => ?_⟩
    cases hform
    cases simple <;> decide +kernel

/-- Single quotes do not keep the line end U+0085, which is read as a space. --/
example :
    let _ : Host := .ample
    encode ⟨#[.mapping [(1, 2)], .scalar (.str "k"), .scalar (.str "a\u0085b")], 0⟩ =
      .ok (Text.encode "k: 'a\u0085  b'\n".toList) ∧
    decode "k.yaml" .standard (Text.encode "k: 'a\u0085  b'\n".toList) =
      .ok ⟨#[.mapping [(1, 2)], .scalar (.str "k"), .scalar (.str "a b")], 0⟩ := by
  decide +kernel

end Manifest

end Retag

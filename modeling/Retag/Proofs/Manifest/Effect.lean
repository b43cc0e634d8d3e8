import Retag.Proofs.Manifest.Fault
import Retag.Proofs.Manifest.Saved

/-! What a request does to the files. A request that changes no tag, or is a dry run, does nothing to them; any other
    that succeeds changes the content of one file, the one that was read, and nothing else. -/

namespace Retag.Manifest
open Files

variable [Host] {fault : Option Fault} {t : FileTree} {request : Request} {p : Patched}

/-- A request succeeds under a fault only if it does not make the call that fails, and then the fault makes no
    difference. --/
theorem patch_eq_of_ok (h : (patch fault t request).result = .ok p) : patch fault t request = patch none t request := by
  cases fault with
  | none => rfl
  | some f =>
    have hyields := patch_yields f t request
    by_cases hcall : f.call ∈ calls t request
    · rw [hyields.failed hcall] at h
      cases h
    · exact hyields.same hcall

/-- What was found when a request succeeds, and what was done: nothing, or the document with the tag was saved. --/
theorem patch_eq_ok (h : (patch none t request).result = .ok p) :
    ∃ tag found, Tag.ofValue request.version = .ok tag ∧
      find none t (.ofText request.path) request.selector = .ok found ∧ p.changed = !isText found.tag tag.text ∧
      ((p.changed = false ∨ request.dryRun = true) → (patch none t request).tree = t) ∧
      (p.changed = true → request.dryRun = false → ∃ l,
        save none t (.ofText request.path) (found.tagged tag) = ⟨.ok l, (patch none t request).tree, []⟩) := by
  unfold patch at h ⊢
  cases htag : Tag.ofValue request.version with
  | error e => simp [htag] at h
  | ok tag =>
    simp only [htag] at h ⊢
    cases hfound : find none t (.ofText request.path) request.selector with
    | error e => simp [hfound] at h
    | ok found =>
      simp only [hfound, apply] at h ⊢
      refine ⟨tag, found, rfl, rfl, ?_⟩
      cases hcurrent : isText found.tag tag.text
      case true =>
        simp only [hcurrent, ↓reduceIte, Except.ok.injEq] at h ⊢
        exact ⟨h ▸ rfl, fun _ => trivial, fun hchanged => absurd hchanged (by simp [← h])⟩
      case false =>
        cases hdry : request.dryRun
        case true =>
          simp only [hcurrent, hdry, Bool.false_eq_true, ↓reduceIte, Except.ok.injEq] at h ⊢
          exact ⟨h ▸ rfl, fun _ => trivial, fun _ hdry => absurd hdry (by decide)⟩
        case false =>
          simp only [hcurrent, hdry, Bool.false_eq_true, ↓reduceIte] at h ⊢
          change ((saveAndRecord none t (.ofText request.path) (found.tagged tag)).andThen _).result = _ at h
          change _ ∧ (_ → ((saveAndRecord none t (.ofText request.path) (found.tagged tag)).andThen _).tree = t) ∧
            (_ → _ → ∃ l, _ = (⟨_, ((saveAndRecord none t (.ofText request.path) (found.tagged tag)).andThen _).tree, _⟩ : Outcome _))
          have hrecords := records_save none t (.ofText request.path) (found.tagged tag)
          generalize hs : save none t (.ofText request.path) (found.tagged tag) = o at hrecords
          obtain ⟨result, u, records⟩ := o
          obtain rfl : records = [] := hrecords
          rw [saveAndRecord, hs] at h ⊢
          cases result with
          | error e => cases h
          | ok l =>
            obtain rfl := Except.ok.inj h
            exact ⟨rfl, fun hkept => absurd hkept (by simp), fun _ _ => ⟨l, rfl⟩⟩

/-- What is found for a path is the tag of the addressed entry of the document that is loaded. --/
theorem find_eq_ok {path : Path} {selector : Option String} {found : Found} (h : find fault t path selector = .ok found) :
    load fault t path = .ok found.document ∧ ∃ slot, locate found.document selector = .ok slot ∧
      found.entry = slot.cell ∧ found.tag = tagValue found.document slot.cell := by
  obtain ⟨d, hload, hrest⟩ := bind_eq_ok.mp h
  obtain ⟨slot, hslot, htext⟩ := bind_eq_ok.mp hrest
  obtain ⟨text, -, hpure⟩ := bind_eq_ok.mp htext
  obtain rfl := Except.ok.inj hpure
  refine ⟨hload, slot, ?_, rfl, rfl⟩
  cases hlocate : locate d selector with
  | error e => simp [hlocate] at hslot
  | ok slot' => simpa [hlocate] using hslot

/-- What a request that changes a tag has done: the document was read from the file that the path leads to, and this file
    holds the document with the new tag from then on. --/
theorem patch_writes (ht : t.HasNames) (h : (patch none t request).result = .ok p) (hchanged : p.changed = true)
    (hdry : request.dryRun = false) :
    ∃ l content mode d slot tag bytes, (Path.ofText request.path).hasNull = false ∧
      t.find (.ofText request.path) = .ok l ∧ t.get? l = some (.file content mode) ∧
      decode (Path.ofText request.path).text .standard content = .ok d ∧ locate d request.selector = .ok slot ∧
      Tag.ofValue request.version = .ok tag ∧ encode ⟨writeTag d.cells slot.cell tag.text, d.root⟩ = .ok bytes ∧
      (patch none t request).tree = t.put l (.file bytes mode) := by
  obtain ⟨tag, found, htag, hfound, -, -, hsaved⟩ := patch_eq_ok h
  obtain ⟨hload, slot, hslot, hentry, -⟩ := find_eq_ok hfound
  obtain ⟨hnull, l, content, mode, hl, hx, hdecode⟩ := find_of_load hload
  obtain ⟨m, hsave⟩ := hsaved hchanged hdry
  obtain ⟨bytes, hbytes, htree⟩ := tree_of_save ht hnull hl hx hsave
  rw [Found.tagged, hentry] at hbytes
  exact ⟨l, content, mode, found.document, slot, tag, bytes, hnull, hl, hx, hdecode, hslot, htag, hbytes, htree⟩

/-- A request that succeeds and changes no tag, or is a dry run, leaves the tree as it is. Any other that succeeds
    changes one file: the one that the path leads to, from which the document was read. It holds the document with the
    new tag from then on, and keeps its mode; all other locations, with the links among them, are as they were, and
    none is new or gone. --/
theorem patch_changes_one_file (ht : t.HasNames) (h : (patch fault t request).result = .ok p) :
    let path := Path.ofText request.path
    let u := (patch fault t request).tree
    ((p.changed = false ∨ request.dryRun = true) → u = t) ∧
      (p.changed = true → request.dryRun = false →
        ∃ l content mode d slot tag bytes, t.find path = .ok l ∧ t.get? l = some (.file content mode) ∧
          decode path.text .standard content = .ok d ∧ locate d request.selector = .ok slot ∧
          Tag.ofValue request.version = .ok tag ∧
          encode ⟨writeTag d.cells slot.cell tag.text, d.root⟩ = .ok bytes ∧ u.get? l = some (.file bytes mode) ∧
          (∀ m, m ≠ l → u.get? m = t.get? m) ∧ u.here = t.here ∧ u.nodes.map Prod.fst = t.nodes.map Prod.fst) := by
  intro path u
  have hsound := patch_eq_of_ok h
  rw [hsound] at h
  refine ⟨fun hnone => ?_, fun hchanged hdry => ?_⟩
  · obtain ⟨_, _, -, -, -, hkept, -⟩ := patch_eq_ok h
    exact (congrArg Outcome.tree hsound).trans (hkept hnone)
  · obtain ⟨l, content, mode, d, slot, tag, bytes, -, hl, hx, hdecode, hlocate, htag, hbytes, htree⟩ :=
      patch_writes ht h hchanged hdry
    have hu : u = t.put l (.file bytes mode) := (congrArg Outcome.tree hsound).trans htree
    have hdir : t.get? l ≠ some .directory := by simp [hx]
    refine ⟨l, content, mode, d, slot, tag, bytes, hl, hx, hdecode, hlocate, htag, hbytes, ?_⟩
    rw [hu]
    exact ⟨FileTree.get?_put_self (FileTree.not_isPrefixOf_here_of_get? hdir), fun _ => FileTree.get?_put_of_ne,
      FileTree.here_put, FileTree.map_fst_nodes_put (by simp [hx]) hdir⟩

omit [Host] in
/-- Through a link the file that it leads to is changed, and the link stays. --/
theorem patch_changes_one_file_behind_link :
    let _ : Host := .ample
    let t : FileTree :=
      { nodes := [(["link.yaml"], .link "k.yaml"),
          (["k.yaml"], .file ("images:\n- newTag: a\n".toList.map fun c => UInt8.ofNat c.toNat) 0o640)] }
    let request : Request := { version := .str "b", path := "link.yaml" }
    (patch none t request).result = .ok ⟨"link.yaml", some "a", true⟩ ∧
      ((patch none t request).tree.get? ["link.yaml"] = some (.link "k.yaml")) ∧
      ∃ l bytes, (patch none t request).tree.get? l = some (.file bytes 0o640) := by
  intro host t request
  have h : (patch none t request).result = .ok ⟨"link.yaml", some "a", true⟩ := by decide +kernel
  obtain ⟨l, content, mode, d, slot, tag, bytes, hl, hx, -, -, -, -, hu, hsame, -⟩ :=
    (patch_changes_one_file (fun _ hmem => absurd hmem List.not_mem_nil) h).2 rfl rfl
  have hk : l = ["k.yaml"] := by
    have hfind : t.find (.ofText "link.yaml") = .ok ["k.yaml"] := by decide +kernel
    exact Except.ok.inj (hl.symm.trans hfind)
  subst hk
  obtain rfl : mode = 0o640 := by
    have hget : t.get? ["k.yaml"] =
        some (.file ("images:\n- newTag: a\n".toList.map fun c => UInt8.ofNat c.toNat) 0o640) := by decide +kernel
    exact (Node.file.inj (Option.some.inj (hx.symm.trans hget))).2
  exact ⟨h, (hsame _ (by decide)).trans (by decide +kernel), _, bytes, hu⟩

end Retag.Manifest

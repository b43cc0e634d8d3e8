import Retag.Proofs.CommandLine.Exit
import Retag.Proofs.Manifest.Entry

/-! Asking, trying and patching. Asking for the tag of an entry, a dry run and a patch find the same entry, or fail
    for the same reason; and what a dry run reports is what the patch reports, unless the document cannot be saved. -/

namespace Retag.Manifest
open Files Journal

variable [Host] {fault : Option Fault} {t : FileTree} {request : Request} {found : Found} {tag : Tag}

/-! ### What is found -/

theorem tagText?_of_find {path : Path} {selector : Option String} (h : find fault t path selector = .ok found) :
    tagText? found.tag = .ok found.text := by
  obtain ⟨d, -, hrest⟩ := bind_eq_ok.mp h
  obtain ⟨slot, -, htext⟩ := bind_eq_ok.mp hrest
  obtain ⟨text, hshown, hpure⟩ := bind_eq_ok.mp htext
  obtain rfl := Except.ok.inj hpure
  exact hshown

/-! ### What is reported -/

theorem result_saveAndRecord (fault : Option Fault) (t : FileTree) (path : Path) (d : Document) :
    (saveAndRecord fault t path d).result = (save fault t path d).result := by
  rw [saveAndRecord, Outcome.thenRecord]
  split
  · rfl
  · rfl

omit [Host] in
theorem result_andThen_ok {α β : Type} (o : Outcome α) (b : β) (records : List Record) :
    (o.andThen fun _ t => ⟨.ok b, t, records⟩).result = o.result.map fun _ => b := by
  rw [Outcome.andThen]
  cases o.result <;> rfl

/-- What is reported on a tag that was found: its text, and whether it is to change. --/
def Found.report (found : Found) (path : Path) (tag : Tag) : Patched :=
  ⟨path.text, found.text, !isText found.tag tag.text⟩

omit [Host] in
/-- No change is reported exactly of a tag that is this text; a number with the same text is another tag. --/
theorem changed_report_eq_false_iff {path : Path} :
    (found.report path tag).changed = false ↔ found.tag = .str tag.text := by
  rw [Found.report, Bool.not_eq_false', isText_iff]

/-- A request whose entry is not found fails for this reason, if its version is a tag. --/
theorem patch_of_lost {e : Failure} (htag : Tag.ofValue request.version = .ok tag)
    (h : find fault t (.ofText request.path) request.selector = .error e) :
    patch fault t request = ⟨.error e, t, []⟩ := by
  simp only [patch, htag, h]

/-- A request whose entry is found reports on it; to change the tag, and not in a dry run, it saves the document
    before. --/
theorem result_patch_of_found (htag : Tag.ofValue request.version = .ok tag)
    (h : find fault t (.ofText request.path) request.selector = .ok found) :
    let p := found.report (.ofText request.path) tag
    (patch fault t request).result = if p.changed && !request.dryRun then
      (save fault t (.ofText request.path) (found.tagged tag)).result.map fun _ => p else .ok p := by
  intro p
  simp only [p, Found.report, patch, htag, h, apply]
  cases isText found.tag tag.text
  case true => rfl
  case false =>
    cases request.dryRun
    case true => rfl
    case false =>
      exact (result_andThen_ok _ _ _).trans (congrArg _ (result_saveAndRecord fault t _ (found.tagged tag)))

/-- A dry run leaves the files as they are. --/
theorem tree_patch_of_dryRun (h : request.dryRun = true) : (patch fault t request).tree = t := by
  have hends := patch_ends fault t request
  generalize patch fault t request = o at hends ⊢
  have hnot : ∀ d, ¬Rewrites fault t request d := by
    rintro d ⟨-, -, -, -, -, hreal, -⟩
    rw [h] at hreal
    cases hreal
  cases hends with
  | rejected _ _ => rfl
  | lost _ _ _ _ => rfl
  | kept _ _ _ _ _ _ _ => rfl
  | failed d _ _ hr _ => exact absurd hr (hnot d)
  | done d _ _ _ _ hr _ => exact absurd hr (hnot d)

/-- For a version that is a tag, asking for the tag of an entry, a dry run and a patch all fail for one reason, or all
    find one tag in the document that is loaded. Then the dry run succeeds, with the text that asking gives; it
    reports no change exactly if the tag is this text and not another value with the same text; and the patch ends as
    the dry run does, unless the document with the new tag has to be saved and saving fails: then it fails as saving
    does. Asking and a dry run leave the files as they are. --/
theorem query_dryRun_patch {version : Value} (h : Tag.ofValue version = .ok tag) (fault : Option Fault) (t : FileTree)
    (path : String) (selector : Option String) :
    let asked := tagOf fault t path selector
    let tried := patch fault t { version, path, selector, dryRun := true }
    let patched := patch fault t { version, path, selector, dryRun := false }
    ((∃ e, asked = .error e ∧ tried.result = .error e ∧ patched.result = .error e) ∨
      ∃ d slot p, load fault t (.ofText path) = .ok d ∧ locate d selector = .ok slot ∧
        tagText? (tagValue d slot.cell) = .ok p.previous ∧ asked = .ok p.previous ∧ tried.result = .ok p ∧
        (p.changed = false ↔ tagValue d slot.cell = .str tag.text) ∧
        (p.changed = false → patched.result = .ok p) ∧
        (p.changed = true → patched.result =
          (save fault t (.ofText path) ⟨writeTag d.cells slot.cell tag.text, d.root⟩).result.map fun _ => p)) ∧
      tried.tree = t ∧
      ∀ settings a, a.command = .query → (CommandLine.execute fault t settings a).tree = t := by
  intro asked tried patched
  refine ⟨?_, tree_patch_of_dryRun rfl, fun settings a hquery => ?_⟩
  · cases hfind : find fault t (.ofText path) selector with
    | error e =>
      -- Nothing is found: all three fail before the dry run and the patch part.
      have hlost : ∀ dryRun, patch fault t { version, path, selector, dryRun } = ⟨.error e, t, []⟩ :=
        fun dryRun => patch_of_lost h hfind
      exact .inl ⟨e, by simp only [asked, tagOf, hfind, error_bind], congrArg Outcome.result (hlost true),
        congrArg Outcome.result (hlost false)⟩
    | ok found =>
      obtain ⟨hload, slot, hslot, hentry, htag⟩ := find_eq_ok hfind
      have htext := tagText?_of_find hfind
      have hresult : ∀ dryRun, (patch fault t { version, path, selector, dryRun }).result = _ :=
        fun dryRun => result_patch_of_found h hfind
      have hchanged : (found.report (.ofText path) tag).changed = false ↔ found.tag = .str tag.text :=
        changed_report_eq_false_iff
      refine .inr ⟨found.document, slot, found.report (.ofText path) tag, hload, hslot, ?_, ?_, ?_, ?_, ?_, ?_⟩
      · rw [← htag]
        exact htext
      · simp only [asked, tagOf, hfind, ok_bind, pure_eq_ok, Found.report]
      · exact (hresult true).trans (by simp)
      · rw [← htag]
        exact hchanged
      · intro hsame
        exact (hresult false).trans (by simp [hsame])
      · intro hother
        refine (hresult false).trans ?_
        rw [hother, Found.tagged, hentry]
        rfl
  · rw [CommandLine.execute, hquery]
    exact CommandLine.tree_ofOutcome _ _

omit [Host] in
/-- A number is another tag than the text that it is shown by: a patch with this text changes it. --/
theorem query_dryRun_patch_number :
    let _ : Host := .ample
    let t : FileTree :=
      { nodes := [(["k.yaml"], .file ("images:\n- newTag: 15\n".toList.map fun c => UInt8.ofNat c.toNat) 0o644)] }
    let tried := patch none t { version := .str "15", path := "k.yaml", dryRun := true }
    let patched := patch none t { version := .str "15", path := "k.yaml" }
    tagOf none t "k.yaml" none = .ok (some "15") ∧ tried.result = .ok ⟨"k.yaml", some "15", true⟩ ∧ tried.tree = t ∧
      ∃ d slot, load none t (.ofText "k.yaml") = .ok d ∧ locate d none = .ok slot ∧
        tagValue d slot.cell ≠ .str "15" ∧
        patched.result = (save none t (.ofText "k.yaml") ⟨writeTag d.cells slot.cell "15", d.root⟩).result.map
          fun _ => ⟨"k.yaml", some "15", true⟩ := by
  intro host t tried patched
  have hasked : tagOf none t "k.yaml" none = .ok (some "15") := by decide +kernel
  have htried : tried.result = .ok ⟨"k.yaml", some "15", true⟩ := by decide +kernel
  have htag : Tag.ofValue (.str "15") = .ok ⟨"15", by decide⟩ := by decide +kernel
  obtain ⟨hall, htree, -⟩ := query_dryRun_patch htag none t "k.yaml" none
  rcases hall with ⟨e, he, -⟩ | ⟨d, slot, p, hload, hslot, -, -, hp, hsame, -, hother⟩
  · rw [hasked] at he
    cases he
  · obtain rfl := Except.ok.inj (hp.symm.trans htried)
    refine ⟨hasked, htried, htree, d, slot, hload, hslot, ?_, hother rfl⟩
    intro htext
    exact absurd (hsame.mpr htext) (by decide)

end Retag.Manifest

import Retag.Manifest.Patch
import Retag.Proofs.Manifest.Store

/-! How patching a manifest ends. Whatever goes wrong, the tree is as it was before, with one exception: a document
    that comes to be written and cannot be leaves its temporary file behind. -/

namespace Retag.Manifest
open Files Journal

variable [Host] {fault : Option Fault} {t : FileTree} {request : Request}

/-! ### The ways to end -/

/-- A document with another tag in one of its entries. --/
def Found.tagged (found : Found) (tag : Tag) : Document :=
  { found.document with cells := writeTag found.document.cells found.entry tag.text }

/-- A request comes as far as to write a document: its version is a tag, its entry is found, and the tag in there is
    another one. --/
def Rewrites (fault : Option Fault) (t : FileTree) (request : Request) (d : Document) : Prop :=
  ∃ tag found, Tag.ofValue request.version = .ok tag ∧
    find fault t (.ofText request.path) request.selector = .ok found ∧ isText found.tag tag.text = false ∧
    request.dryRun = false ∧ d = found.tagged tag

/-- How a request can end. --/
inductive Patches (fault : Option Fault) (t : FileTree) (request : Request) : Outcome Patched → Prop where
  /-- The version is not a tag. --/
  | rejected (e : BadVersion) (h : Tag.ofValue request.version = .error e) :
      Patches fault t request ⟨.error (.refused (.version e)), t, []⟩
  /-- The entry is not found. --/
  | lost (tag : Tag) (e : Failure) (ht : Tag.ofValue request.version = .ok tag)
      (h : find fault t (.ofText request.path) request.selector = .error e) : Patches fault t request ⟨.error e, t, []⟩
  /-- There is nothing to be written. --/
  | kept (tag : Tag) (found : Found) (patched : Patched) (records : List Record)
      (ht : Tag.ofValue request.version = .ok tag)
      (hf : find fault t (.ofText request.path) request.selector = .ok found)
      (h : isText found.tag tag.text = true ∨ request.dryRun = true) :
      Patches fault t request ⟨.ok patched, t, records⟩
  /-- The document was not written. --/
  | failed (d : Document) (e : Failure) (u : FileTree) (hr : Rewrites fault t request d)
      (hs : save fault t (.ofText request.path) d = ⟨.error e, u, []⟩) : Patches fault t request ⟨.error e, u, []⟩
  /-- The document was written. --/
  | done (d : Document) (l : Location) (u : FileTree) (patched : Patched) (records : List Record)
      (hr : Rewrites fault t request d) (hs : save fault t (.ofText request.path) d = ⟨.ok l, u, []⟩) :
      Patches fault t request ⟨.ok patched, u, records⟩

theorem records_save (fault : Option Fault) (t : FileTree) (path : Path) (d : Document) :
    (save fault t path d).records = [] := by
  have h := save_ends fault t path d
  generalize save fault t path d = o at h ⊢
  cases h <;> rfl

theorem patch_ends (fault : Option Fault) (t : FileTree) (request : Request) :
    Patches fault t request (patch fault t request) := by
  unfold patch
  cases ht : Tag.ofValue request.version with
  | error e => exact .rejected e ht
  | ok tag =>
    simp only
    cases hf : find fault t (.ofText request.path) request.selector with
    | error e => exact .lost tag e ht hf
    | ok found =>
      simp only [apply]
      split
      case isTrue htext => exact .kept tag found _ _ ht hf (Or.inl htext)
      case isFalse htext =>
        split
        case isTrue hdry => exact .kept tag found _ _ ht hf (Or.inr hdry)
        case isFalse hdry =>
          have hr : Rewrites fault t request (found.tagged tag) :=
            ⟨tag, found, ht, hf, by simpa using htext, by simpa using hdry, rfl⟩
          change Patches fault t request
            (((save fault t (.ofText request.path) (found.tagged tag)).thenRecord _).andThen _)
          have hrecords := records_save fault t (.ofText request.path) (found.tagged tag)
          generalize hs : save fault t (.ofText request.path) (found.tagged tag) = o at hrecords ⊢
          obtain ⟨result, u, records⟩ := o
          obtain rfl : records = [] := hrecords
          cases result with
          | error e => exact .failed _ e u hr hs
          | ok l => exact .done _ l u _ _ hr hs

/-- A request writes one document at most. --/
theorem Rewrites.unique {d d' : Document} (h : Rewrites fault t request d) (h' : Rewrites fault t request d') :
    d = d' := by
  obtain ⟨tag, found, ht, hf, -, -, rfl⟩ := h
  obtain ⟨tag', found', ht', hf', -, -, rfl⟩ := h'
  rw [ht] at ht'
  rw [hf] at hf'
  cases ht'
  cases hf'
  rfl

/-! ### Stranded files -/

/-- A request strands its temporary file: it comes as far as to write a document, into a file that was made, and the
    document cannot be written. --/
def Strands (fault : Option Fault) (t : FileTree) (request : Request) (temporary : Location) (why : Breakdown) : Prop :=
  ∃ d l, Rewrites fault t request d ∧ Writes fault t (.ofText request.path) l temporary ∧ Unwritable d why

/-- A request that strands its temporary file fails, and the empty file is all that it leaves. --/
theorem patch_of_strands {temporary : Location} {why : Breakdown} (h : Strands fault t request temporary why) :
    (patch fault t request).result = .error (.broken why) ∧ t.get? temporary = none ∧
      (patch fault t request).tree = t.put temporary (.file [] FileTree.temporaryMode) := by
  obtain ⟨d, l, hr, hw, hl⟩ := h
  obtain ⟨tag, found, ht, hf, htext, hdry, rfl⟩ := id hr
  have hs := save_of_writes hw (encode_eq_error_iff.mpr hl)
  have hfree := (FileTree.makeTemporary_eq_ok hw.made).1
  cases hp : patch fault t request with
  | mk result u records =>
    have hends := patch_ends fault t request
    rw [hp] at hends
    cases hends with
    | rejected e h => rw [ht] at h; cases h
    | lost tag' e _ h => rw [hf] at h; cases h
    | kept tag' found' _ _ ht' hf' h =>
      rw [ht] at ht'
      rw [hf] at hf'
      cases ht'
      cases hf'
      simp [htext, hdry] at h
    | failed d' e _ hr' hs' =>
      obtain rfl := hr.unique hr'
      rw [hs] at hs'
      cases hs'
      exact ⟨rfl, hfree, rfl⟩
    | done d' l' _ _ _ hr' hs' =>
      obtain rfl := hr.unique hr'
      rw [hs] at hs'
      cases hs'

/-- A request that fails leaves the tree as it was, or else its stranded temporary file. --/
theorem tree_patch_of_error {e : Failure} (h : (patch fault t request).result = .error e) :
    (patch fault t request).tree = t ∨ ∃ temporary why, Strands fault t request temporary why := by
  have hends := patch_ends fault t request
  generalize patch fault t request = o at h hends ⊢
  cases hends with
  | rejected _ _ => exact Or.inl rfl
  | lost _ _ _ _ => exact Or.inl rfl
  | kept _ _ _ _ _ _ _ => cases h
  | failed d e' u hr hs =>
    have hsave := save_ends fault t (.ofText request.path) d
    rw [hs] at hsave
    cases hsave with
    | noTarget _ _ => exact Or.inl rfl
    | undone _ => exact Or.inl rfl
    | stranded l temporary why hw he =>
      exact Or.inr ⟨temporary, why, d, l, hr, hw, encode_eq_error_iff.mp he⟩
  | done _ _ _ _ _ _ _ => cases h

/-- A request that fails, whatever the reason and the fault, leaves the tree as it was exactly if it strands no
    temporary file; and if it does, the document could not be written, and the file is all that is new. --/
theorem tree_patch_eq_iff {e : Failure} (h : (patch fault t request).result = .error e) :
    ((patch fault t request).tree = t ↔ ∀ temporary why, ¬Strands fault t request temporary why) ∧
      ∀ temporary why, Strands fault t request temporary why → e = .broken why ∧ t.get? temporary = none ∧
        (patch fault t request).tree = t.put temporary (.file [] FileTree.temporaryMode) := by
  refine ⟨⟨fun htree temporary why hs => ?_, fun hs => ?_⟩, fun temporary why hs => ?_⟩
  · obtain ⟨-, hfree, hput⟩ := patch_of_strands hs
    exact FileTree.put_ne_self_of_free hfree (hput.symm.trans htree)
  · rcases tree_patch_of_error h with htree | ⟨temporary, why, hst⟩
    · exact htree
    · exact absurd hst (hs temporary why)
  · obtain ⟨hres, hfree, hput⟩ := patch_of_strands hs
    rw [h] at hres
    exact ⟨by injection hres, hfree, hput⟩

omit [Host] in
/-- A manifest that cannot be replaced stays as it is. --/
theorem tree_patch_eq_iff_replace_denied :
    let _ : Host := .ample
    let t : FileTree :=
      { nodes := [(["k.yaml"], .file ("images:\n- newTag: a\n".toList.map fun c => UInt8.ofNat c.toNat) 0o644)] }
    let fault : Option Fault := some ⟨.replace, .denied⟩
    let request : Request := { version := .str "b", path := "k.yaml" }
    (patch fault t request).result = .error (.refused (.fileError "k.yaml" .denied)) ∧
      ((patch fault t request).tree = t ↔ ∀ temporary why, ¬Strands fault t request temporary why) := by
  intro host t fault request
  have h : (patch fault t request).result = .error (.refused (.fileError "k.yaml" .denied)) := by decide +kernel
  exact ⟨h, (tree_patch_eq_iff h).1⟩

end Retag.Manifest

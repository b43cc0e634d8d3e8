import Retag.Proofs.Files.Alike
import Retag.Proofs.Manifest.Patch
import Retag.Proofs.Manifest.Saved

/-! Requests to trees that are alike but for what the manifest holds. As long as the two contents decode alike, a
    request ends alike: it replaces both by the same, or leaves each as it is. -/

namespace Retag.Manifest
open Files FileTree

variable {fault : Option Fault} {t u : FileTree} {path : Path} {l temporary : Location}
  {content content' : List UInt8} {mode : Nat} {request : Request}

/-! ### Loading -/

theorem load_alike [Host] (h : t.AlikeBut l u) (hl : t.find path = .ok l) (ht : t.get? l = some (.file content mode))
    (hu : u.get? l = some (.file content' mode)) {charset : Charset}
    (hdecode : decode path.text charset content' = decode path.text charset content) :
    load fault u path charset = load fault t path charset := by
  have hl' : u.find path = .ok l := by rw [h.find, hl]
  have hfile : u.isFile path = t.isFile path := by simp only [isFile, hl, hl', ht, hu]
  have hcontent : t.content path = .ok content := by simp only [FileTree.content, hl, ht, ok_bind, pure_eq_ok]
  have hcontent' : u.content path = .ok content' := by simp only [FileTree.content, hl', hu, ok_bind, pure_eq_ok]
  simp only [load, contentOf, hfile, hcontent, hcontent']
  rcases attempt fault .isFile (t.isFile path) with e | (_ | _)
  · rfl
  · rfl
  · rcases attempt_cases fault .openFile with hopen | ⟨e, hopen⟩
    · simpa only [hopen, mapError_ok, ok_bind] using hdecode
    · simp only [hopen, mapError_error, error_bind]

/-! ### Saving -/

/-- Two actions end alike on trees that are alike but for one file: with the same result and the same records; and if
    they wrote the file it is the same in both, and otherwise as it was in each. --/
structure EndAlike {α : Type} (wrote : Prop) (l : Location) (t u : FileTree) (o o' : Outcome α) : Prop where
  result : o'.result = o.result
  records : o'.records = o.records
  written : wrote → o'.tree = o.tree
  kept : ¬wrote → o.tree.AlikeBut l o'.tree ∧ o.tree.get? l = t.get? l ∧ o'.tree.get? l = u.get? l

variable {α : Type} {wrote : Prop}

theorem endAlike_of_unwritten (h : t.AlikeBut l u) (hw : ¬wrote) (result : Except Failure α)
    (records : List Journal.Record) : EndAlike wrote l t u ⟨result, t, records⟩ ⟨result, u, records⟩ :=
  ⟨rfl, rfl, fun hwrote => absurd hwrote hw, fun _ => ⟨h, rfl, rfl⟩⟩

theorem target_alike (h : t.AlikeBut l u) (hl : t.find path = .ok l) : target fault u path = target fault t path := by
  have hresolve : u.resolve path = t.resolve path := by rw [resolve_of_find (h.find path ▸ hl), resolve_of_find hl]
  simp only [target, hresolve, h.isEndless, h.follow]

theorem replaceBy_alike (h : t.AlikeBut l u) (hfree : t.get? temporary = none) (hne : temporary ≠ l)
    (content : List UInt8) (mode : Nat) :
    replaceBy fault (u.put temporary (.file [] mode)) temporary l content =
      replaceBy fault (t.put temporary (.file [] mode)) temporary l content := by
  obtain ⟨_, _, _, ht, hu⟩ := h.file
  have hfree' : u.get? temporary = none := by rw [h.get?_of_ne hne, hfree]
  have hmode : ∀ n, (((u.put temporary n).follow l).toOption.bind (u.put temporary n).get?).elim mode modeOf =
      (((t.put temporary n).follow l).toOption.bind (t.put temporary n).get?).elim mode modeOf := by
    intro n
    have hput := h.put hfree n
    rw [hput.follow]
    cases (t.put temporary n).follow l with
    | error e => rfl
    | ok m =>
      change ((u.put temporary n).get? m).elim mode modeOf = ((t.put temporary n).get? m).elim mode modeOf
      rcases hput.get?_cases m with hm | ⟨_, _, _, htm, hum⟩
      · rw [hm]
      · rw [htm, hum]
        rfl
  have hreplace : ∀ n, (u.put temporary n).replace temporary l = (t.put temporary n).replace temporary l := by
    intro n
    rw [replace_put_of_get? hfree' hne hu (by simp), replace_put_of_get? hfree hne ht (by simp), h.rest]
  simp only [replaceBy, write_put_of_free hfree, write_put_of_free hfree', copyMode_put_of_free hfree,
    copyMode_put_of_free hfree', hmode, hreplace]

variable [Host]

/-- A document is saved alike to trees that are alike but for the file that it is saved to. --/
theorem save_alike (h : t.AlikeBut l u) (hl : t.find path = .ok l) (fault : Option Fault) (d : Document) :
    EndAlike (∃ m, (save fault t path d).result = .ok m) l t u (save fault t path d) (save fault u path d) := by
  unfold save
  rw [target_alike h hl]
  cases htarget : target fault t path with
  | error e => exact endAlike_of_unwritten h (by simp) _ _
  | ok m =>
    obtain rfl : m = l := (target_eq_ok htarget).1.trans (resolve_of_find hl)
    simp only [h.makeTemporary]
    rcases attempt_cases fault .makeTemporary with hmake | ⟨e, hmake⟩
    · simp only [hmake]
      cases hmade : t.makeTemporary m with
      | error e => exact endAlike_of_unwritten h (by simp) _ _
      | ok made =>
        obtain ⟨temporary, v⟩ := made
        obtain ⟨hfree, rfl, hne⟩ := makeTemporary_eq_ok hmade
        have hfree' : u.get? temporary = none := by rw [h.get?_of_ne hne, hfree]
        simp only [map_ok, erase_put_of_free hfree, erase_put_of_free hfree', replaceBy_alike h hfree hne]
        cases attempt fault .dump (.ok ()) with
        | error e => exact endAlike_of_unwritten h (by simp) _ _
        | ok _ =>
          dsimp only
          cases encode d with
          | error why =>
            -- The temporary file is left, in both trees the same.
            refine ⟨rfl, rfl, fun hw => absurd hw (by simp), fun _ => ⟨h.put hfree _, ?_, ?_⟩⟩
            · exact get?_put_of_ne (Ne.symm hne)
            · exact get?_put_of_ne (Ne.symm hne)
          | ok bytes =>
            dsimp only
            cases replaceBy fault (t.put temporary (.file [] temporaryMode)) temporary m bytes with
            | error e => exact endAlike_of_unwritten h (by simp) _ _
            | ok v => exact ⟨rfl, rfl, fun _ => rfl, fun hw => absurd ⟨m, rfl⟩ hw⟩
    · simp only [hmake]
      exact endAlike_of_unwritten h (by simp) _ _

/-! ### Requests -/

/-- A request with this result has written its manifest. --/
def Request.Wrote (request : Request) (result : Except Failure Patched) : Prop :=
  ∃ p, result = .ok p ∧ p.changed = true ∧ request.dryRun = false

omit [Host] in
/-- What is reported on a save, and recorded of it, leaves two of them alike. --/
theorem EndAlike.reported {p : Patched} {saved saved' : Outcome Location}
    (h : EndAlike (∃ m, saved.result = .ok m) l t u saved saved') (hp : p.changed = true)
    (hdry : request.dryRun = false) (record : Location → Journal.Record) (records : List Journal.Record) :
    let report (o : Outcome Location) : Outcome Patched := (o.thenRecord record).andThen fun _ t => ⟨.ok p, t, records⟩
    EndAlike (request.Wrote (report saved).result) l t u (report saved) (report saved') := by
  obtain ⟨result, v, rs⟩ := saved
  obtain ⟨result', v', rs'⟩ := saved'
  obtain ⟨hresult, hrecords, hwritten, hkept⟩ := h
  obtain rfl : result' = result := hresult
  obtain rfl : rs' = rs := hrecords
  cases result' with
  | error e => exact ⟨rfl, rfl, fun hw => absurd hw (by simp [Request.Wrote, Outcome.thenRecord, Outcome.andThen]),
      fun _ => hkept (by simp)⟩
  | ok m => exact ⟨rfl, rfl, fun _ => hwritten ⟨m, rfl⟩, fun hw => absurd ⟨p, rfl, hp, hdry⟩ hw⟩

theorem patch_alike (h : t.AlikeBut l u) (hl : t.find (.ofText request.path) = .ok l)
    (hload : load fault u (.ofText request.path) = load fault t (.ofText request.path)) :
    EndAlike (request.Wrote (patch fault t request).result) l t u (patch fault t request) (patch fault u request) := by
  have hfind : find fault u (.ofText request.path) request.selector =
      find fault t (.ofText request.path) request.selector := by rw [find, find, hload]
  simp only [patch]
  cases Tag.ofValue request.version with
  | error e => exact endAlike_of_unwritten h (by simp [Request.Wrote]) _ _
  | ok tag =>
    simp only [hfind]
    cases find fault t (.ofText request.path) request.selector with
    | error e => exact endAlike_of_unwritten h (by simp [Request.Wrote]) _ _
    | ok found =>
      simp only [apply]
      cases isText found.tag tag.text
      case true => exact endAlike_of_unwritten h (by simp [Request.Wrote]) _ _
      case false =>
        cases hdry : request.dryRun
        case true => exact endAlike_of_unwritten h (by simp [Request.Wrote, hdry]) _ _
        case false =>
          exact (save_alike h hl fault (found.tagged tag)).reported rfl hdry _ _

end Retag.Manifest

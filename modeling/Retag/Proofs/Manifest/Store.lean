import Retag.Manifest.Store
import Retag.Proofs.Files.Tree
import Retag.Proofs.Markup.Outline
import Retag.Proofs.Results

/-! How saving a manifest ends: nothing was touched, or the temporary file is left, or the target was replaced.
    What comes after a temporary file was made depends on the document only through its encoding. -/

namespace Retag.Manifest
open Files

variable {fault : Option Fault} {t : FileTree} {path : Path} {d : Document}

/-! ### Calls -/

/-- A call fails by the fault that is set on it, and only then differs from its own result. --/
theorem attempt_eq {α : Type} (fault : Option Fault) (call : Call) (r : Except FileError α) :
    attempt fault call r = r ∨ ∃ f, fault = some f ∧ f.call = call ∧ attempt fault call r = .error f.error := by
  cases fault with
  | none => exact Or.inl rfl
  | some f =>
    by_cases h : f.call = call
    · exact Or.inr ⟨f, rfl, h, by simp [attempt, h]⟩
    · exact Or.inl (by simp [attempt, h])

/-- A call fails whatever it would give, or gives what it would without faults. --/
theorem attempt_cases (fault : Option Fault) (call : Call) :
    (∀ {α : Type} (r : Except FileError α), attempt fault call r = r) ∨
      ∃ e, ∀ {α : Type} (r : Except FileError α), attempt fault call r = .error e := by
  cases fault with
  | none => exact .inl fun _ => rfl
  | some f =>
    by_cases h : f.call = call
    · exact .inr ⟨f.error, fun _ => if_pos h⟩
    · exact .inl fun _ => if_neg h

/-- No fault is set on a call. --/
def Unhindered (fault : Option Fault) (call : Call) : Prop :=
  ∀ f, fault = some f → f.call ≠ call

theorem attempt_of_unhindered {α : Type} {call : Call} (h : Unhindered fault call) (r : Except FileError α) :
    attempt fault call r = r := by
  rcases attempt_eq fault call r with hr | ⟨f, hf, hc, -⟩
  · exact hr
  · exact absurd hc (h f hf)

theorem attempt_eq_ok {α : Type} {call : Call} {r : Except FileError α} {a : α} (h : attempt fault call r = .ok a) :
    r = .ok a ∧ Unhindered fault call := by
  unfold attempt at h
  split at h
  · rename_i f
    split at h
    · cases h
    · rename_i hne
      refine ⟨h, fun g hg => ?_⟩
      cases hg
      exact hne
  · exact ⟨h, fun f hf => by cases hf⟩

/-! ### The target -/

theorem target_eq_ok {l : Location} (h : target fault t path = .ok l) :
    l = t.resolve path ∧ path.hasNull = false ∧ (t.follow l).isOk = true ∧ Unhindered fault .resolve ∧
      Unhindered fault .access := by
  unfold target at h
  cases hr : attempt fault .resolve (.ok (t.resolve path)) with
  | error e => simp [hr] at h
  | ok m =>
    obtain ⟨hm, hur⟩ := attempt_eq_ok hr
    cases hm
    simp only [hr, mapError_ok, ok_bind] at h
    split at h
    · cases h
    · rename_i hnull
      split at h
      · cases h
      · split at h
        · rename_i hacc
          cases h
          rw [Bool.and_eq_true] at hacc
          refine ⟨rfl, by simpa using hnull, hacc.2, hur, ?_⟩
          cases ha : attempt fault .access (.ok ()) with
          | error e => simp [ha, Except.isOk, Except.toBool] at hacc
          | ok u => exact (attempt_eq_ok ha).2
        · cases h

/-- There is no target for a path that cannot be resolved, or leads to nothing that may be written. --/
theorem target_eq_error {e : Failure} (h : target fault t path = .error e) :
    (∃ fe, e = refused path fe) ∨ (e = .broken .nullInName ∧ path.hasNull = true) ∨
      (e = .broken .endlessPath ∧ t.isEndless (t.resolve path) = true) := by
  unfold target at h
  cases hr : attempt fault .resolve (.ok (t.resolve path)) with
  | error fe =>
    simp only [hr, mapError_error, error_bind] at h
    cases h
    exact Or.inl ⟨fe, rfl⟩
  | ok m =>
    obtain ⟨hm, -⟩ := attempt_eq_ok hr
    cases hm
    simp only [hr, mapError_ok, ok_bind] at h
    split at h
    · rename_i hnull
      cases h
      exact Or.inr (Or.inl ⟨rfl, hnull⟩)
    · split at h
      · rename_i hend
        cases h
        exact Or.inr (Or.inr ⟨rfl, hend⟩)
      · split at h
        · cases h
        · cases h
          exact Or.inl ⟨_, rfl⟩

/-! ### Saving -/

variable [Host]

/-- Why a document cannot be written: the stack has no room for it, or else a number that is too long can be reached in
    it. --/
inductive Unwritable (d : Document) : Breakdown → Prop where
  | stackFull (h : Host.writes d = false) : Unwritable d .stackFull
  | longNumber (h : Host.writes d = true) (hl : d.HoldsLongNumber) : Unwritable d .longNumber

theorem encode_eq_error_iff {why : Breakdown} : encode d = .error why ↔ Unwritable d why := by
  have hlong : (Markup.render d = .error why ↔ why = .longNumber ∧ d.HoldsLongNumber) := by
    rw [← Markup.Outline.ofDocument_eq_error_iff]
    unfold Markup.render
    cases Markup.Outline.ofDocument d with
    | error e => simp
    | ok o => simp
  unfold encode Markup.write
  rw [map_eq_error]
  constructor
  · intro h
    split at h
    · rename_i hroom
      obtain ⟨rfl, hl⟩ := hlong.mp h
      exact .longNumber hroom hl
    · rename_i hroom
      cases h
      exact .stackFull (by simpa using hroom)
  · rintro (h | ⟨h, hl⟩)
    · rw [if_neg (by simp [h])]
    · rw [if_pos h]
      exact hlong.mpr ⟨rfl, hl⟩

/-- Saving a document comes as far as to write it into a temporary file at a location. --/
structure Writes (fault : Option Fault) (t : FileTree) (path : Path) (l temporary : Location) : Prop where
  target : target fault t path = .ok l
  made : t.makeTemporary l = .ok (temporary, t.put temporary (.file [] FileTree.temporaryMode))
  making : Unhindered fault .makeTemporary
  dumping : Unhindered fault .dump

/-- How saving a document can end. --/
inductive Ends (fault : Option Fault) (t : FileTree) (path : Path) (d : Document) : Outcome Location → Prop where
  /-- The target cannot be found. --/
  | noTarget (e : Failure) (h : target fault t path = .error e) : Ends fault t path d ⟨.error e, t, []⟩
  /-- A file operation failed, and everything is as it was. --/
  | undone (e : FileError) : Ends fault t path d ⟨.error (refused path e), t, []⟩
  /-- The document cannot be written, and the temporary file is left, empty. --/
  | stranded (l temporary : Location) (why : Breakdown) (hw : Writes fault t path l temporary)
      (he : encode d = .error why) :
      Ends fault t path d ⟨.error (.broken why), t.put temporary (.file [] FileTree.temporaryMode), []⟩
  /-- The target has a new content. --/
  | replaced (l temporary : Location) (content : List UInt8) (mode : Nat) (n : Node)
      (hw : Writes fault t path l temporary) (he : encode d = .ok content) (hn : t.get? l = some n)
      (hdir : n ≠ .directory) : Ends fault t path d ⟨.ok l, t.put l (.file content mode), []⟩

omit [Host] in
/-- Filling a temporary file and moving it onto the target fails, or puts the new content in the target's place. --/
theorem replaceBy_put_of_free (fault : Option Fault) {l temporary : Location} (h : t.get? temporary = none)
    (hne : temporary ≠ l) (content : List UInt8) (mode : Nat) :
    (∃ e, replaceBy fault (t.put temporary (.file [] mode)) temporary l content = .error e) ∨
      ∃ n mode', t.get? l = some n ∧ n ≠ .directory ∧
        replaceBy fault (t.put temporary (.file [] mode)) temporary l content = .ok (t.put l (.file content mode')) := by
  simp only [replaceBy, FileTree.write_put_of_free h, FileTree.copyMode_put_of_free h]
  rcases attempt_eq fault .copyMode (.ok ()) with hc | ⟨f, -, -, hc⟩
  · simp only [hc, ok_bind]
    generalize (((t.put temporary (.file content mode)).follow l).toOption.bind
      (t.put temporary (.file content mode)).get?).elim mode FileTree.modeOf = mode'
    rcases attempt_eq fault .replace ((t.put temporary (.file content mode')).replace temporary l) with
      hr | ⟨f, -, -, hr⟩
    · rw [hr]
      rcases FileTree.replace_put_of_free (n := .file content mode') h hne with ⟨e, he⟩ | ⟨n, hn, hdir, he⟩
      · exact Or.inl ⟨e, he⟩
      · exact Or.inr ⟨n, mode', hn, hdir, he⟩
    · exact Or.inl ⟨f.error, hr⟩
  · exact Or.inl ⟨f.error, by rw [hc, error_bind]⟩

/-- Saving a document ends in one of these ways. --/
theorem save_ends (fault : Option Fault) (t : FileTree) (path : Path) (d : Document) :
    Ends fault t path d (save fault t path d) := by
  unfold save
  cases ht : target fault t path with
  | error e => exact .noTarget e ht
  | ok l =>
    simp only
    cases hm : attempt fault .makeTemporary (t.makeTemporary l) with
    | error e => exact .undone e
    | ok made =>
      obtain ⟨temporary, u⟩ := made
      obtain ⟨hmade, hmaking⟩ := attempt_eq_ok hm
      obtain ⟨hfree, rfl, hne⟩ := FileTree.makeTemporary_eq_ok hmade
      simp only
      cases hd : attempt fault .dump (.ok ()) with
      | error e =>
        simp only [FileTree.erase_put_of_free hfree]
        exact .undone e
      | ok _ =>
        have hw : Writes fault t path l temporary := ⟨ht, hmade, hmaking, (attempt_eq_ok hd).2⟩
        simp only
        cases he : encode d with
        | error why => exact .stranded l temporary why hw he
        | ok content =>
          simp only
          rcases replaceBy_put_of_free fault hfree hne content FileTree.temporaryMode with
            ⟨e, hr⟩ | ⟨n, mode, hn, hdir, hr⟩
          · simp only [hr, FileTree.erase_put_of_free hfree]
            exact .undone e
          · simp only [hr]
            exact .replaced l temporary content mode n hw he hn hdir

/-- Saving a document that cannot be written comes to grief exactly if it comes as far as to write it. --/
theorem save_of_writes {l temporary : Location} {why : Breakdown} (hw : Writes fault t path l temporary)
    (he : encode d = .error why) :
    save fault t path d = ⟨.error (.broken why), t.put temporary (.file [] FileTree.temporaryMode), []⟩ := by
  simp only [save, hw.target, attempt_of_unhindered hw.making, hw.made, attempt_of_unhindered hw.dumping, he]

end Retag.Manifest

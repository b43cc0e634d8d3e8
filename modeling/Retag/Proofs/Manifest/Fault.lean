import Retag.Proofs.Manifest.Patch

/-! Faults. A request makes its calls in a fixed order and stops at the first that fails. A fault at a call that is made
    ends the request with this error and leaves everything as it was; a fault at any other call changes nothing. -/

namespace Retag.Manifest
open Files

/-! ### The calls that are made -/

/-- The calls by which a manifest is read, in order. --/
def loadCalls (t : FileTree) (path : Path) : List Call :=
  match t.isFile path with
  | .ok true => [.isFile, .openFile]
  | _ => [.isFile]

/-- The calls by which the target of a path is found, in order. --/
def targetCalls (t : FileTree) (path : Path) : List Call :=
  if path.hasNull || t.isEndless (t.resolve path) then [.resolve] else [.resolve, .access]

section

variable [Host]

/-- The calls by which a document is written to a target, in order. --/
def writeCalls (t : FileTree) (l : Location) (d : Document) : List Call :=
  match t.makeTemporary l, encode d with
  | .error _, _ => [.makeTemporary]
  | .ok _, .error _ => [.makeTemporary, .dump]
  | .ok _, .ok _ => [.makeTemporary, .dump, .copyMode, .replace]

/-- The calls by which a document is written to a path, in order. --/
def saveCalls (t : FileTree) (path : Path) (d : Document) : List Call :=
  targetCalls t path ++ match target none t path with
    | .error _ => []
    | .ok l => writeCalls t l d

/-- The calls that a request makes, in order. --/
def calls (t : FileTree) (request : Request) : List Call :=
  match Tag.ofValue request.version with
  | .error _ => []
  | .ok tag =>
    let path := Path.ofText request.path
    loadCalls t path ++ match find none t path request.selector with
      | .error _ => []
      | .ok found =>
        if isText found.tag tag.text || request.dryRun then [] else saveCalls t path (found.tagged tag)

end

/-- The error that a caller is told of: a file that may not be written is all that is known of a fault of `access`. --/
def seen (f : Fault) : FileError :=
  if f.call = .access then .denied else f.error

/-! ### One call -/

variable {f : Fault} {call : Call} {t : FileTree} {path : Path} {d : Document} {request : Request}

theorem attempt_self {α : Type} (h : f.call = call) (r : Except FileError α) :
    attempt (some f) call r = .error f.error := if_pos h

theorem attempt_of_ne {α : Type} (h : f.call ≠ call) (r : Except FileError α) : attempt (some f) call r = r := if_neg h

theorem seen_of_ne (h : f.call ≠ .access) : seen f = f.error := if_neg h

/-- A result under a fault is this error if the call is made, and else the result without the fault. --/
structure Yields {α : Type} (f : Fault) (made : List Call) (error : α) (faulted sound : α) : Prop where
  failed : f.call ∈ made → faulted = error
  same : f.call ∉ made → faulted = sound

theorem contentOf_yields (f : Fault) (t : FileTree) (path : Path) :
    Yields f (loadCalls t path) (.error (refused path (seen f))) (contentOf (some f) t path) (contentOf none t path) := by
  unfold contentOf loadCalls
  by_cases hfile : f.call = .isFile
  · -- The first call fails, whatever comes after it.
    have hmem : f.call ∈ (match t.isFile path with | .ok true => [Call.isFile, .openFile] | _ => [.isFile]) := by
      split <;> simp [hfile]
    refine ⟨fun _ => ?_, fun h => absurd hmem h⟩
    rw [attempt_self hfile, seen_of_ne (by simp [hfile])]
  · rw [attempt_of_ne hfile, attempt_none]
    cases hres : t.isFile path with
    | error e => exact ⟨fun h => absurd h (by simp [hfile]), fun _ => rfl⟩
    | ok isFile =>
      cases isFile
      · exact ⟨fun h => absurd h (by simp [hfile]), fun _ => rfl⟩
      · by_cases hopen : f.call = .openFile
        · refine ⟨fun _ => ?_, fun h => absurd (by simp [hopen]) h⟩
          simp only [attempt_self hopen, seen_of_ne (show f.call ≠ .access by simp [hopen]), mapError_error]
        · refine ⟨fun h => absurd h (by simp [hfile, hopen]), fun _ => ?_⟩
          simp only [attempt_of_ne hopen, attempt_none]

theorem target_yields (f : Fault) (t : FileTree) (path : Path) :
    Yields f (targetCalls t path) (.error (refused path (seen f))) (target (some f) t path) (target none t path) := by
  unfold target targetCalls
  by_cases hresolve : f.call = .resolve
  · refine ⟨fun _ => ?_, fun h => absurd (by split <;> simp [hresolve]) h⟩
    rw [attempt_self hresolve, seen_of_ne (by simp [hresolve]), mapError_error, error_bind]
  · simp only [attempt_of_ne hresolve, attempt_none, mapError_ok, ok_bind]
    cases path.hasNull
    case true => exact ⟨fun h => absurd h (by simp [hresolve]), fun _ => rfl⟩
    case false =>
      cases t.isEndless (t.resolve path)
      case true => exact ⟨fun h => absurd h (by simp [hresolve]), fun _ => rfl⟩
      case false =>
        by_cases haccess : f.call = .access
        · refine ⟨fun _ => ?_, fun h => absurd (by simp [haccess]) h⟩
          simp [attempt_self haccess, seen, haccess, Except.isOk, Except.toBool]
        · refine ⟨fun h => absurd h (by simp [hresolve, haccess]), fun _ => ?_⟩
          rw [attempt_of_ne haccess]
          rfl

/-- Replacing a target takes two calls, the second whether or not the first finds a mode. --/
theorem replaceBy_yields (f : Fault) (u : FileTree) (temporary l : Location) (content : List UInt8) :
    Yields f [.copyMode, .replace] (.error f.error) (replaceBy (some f) u temporary l content)
      (replaceBy none u temporary l content) := by
  unfold replaceBy
  by_cases hcopy : f.call = .copyMode
  · refine ⟨fun _ => ?_, fun h => absurd (by simp [hcopy]) h⟩
    rw [attempt_self hcopy, error_bind]
  · simp only [attempt_of_ne hcopy, attempt_none, ok_bind]
    by_cases hreplace : f.call = .replace
    · exact ⟨fun _ => attempt_self hreplace _, fun h => absurd (by simp [hreplace]) h⟩
    · exact ⟨fun h => absurd h (by simp [hcopy, hreplace]), fun _ => attempt_of_ne hreplace _⟩

/-- Whoever has found the target has asked whether it may be written. --/
theorem access_mem_targetCalls {l : Location} (h : target none t path = .ok l) : .access ∈ targetCalls t path := by
  obtain ⟨rfl, hnull, hfollow, -, -⟩ := target_eq_ok h
  have hend : t.isEndless (t.resolve path) = false := by
    unfold FileTree.isEndless
    split
    · rename_i e he
      rw [he] at hfollow
      cases hfollow
    · rfl
  simp [targetCalls, hnull, hend]

variable [Host]

theorem load_yields (f : Fault) (t : FileTree) (path : Path) :
    Yields f (loadCalls t path) (.error (refused path (seen f))) (load (some f) t path) (load none t path) := by
  have h := contentOf_yields f t path
  exact ⟨fun hmade => by rw [load, h.failed hmade, error_bind], fun hmade => by rw [load, h.same hmade, load]⟩

theorem save_yields (f : Fault) (t : FileTree) (path : Path) (d : Document) :
    Yields f (saveCalls t path d) ⟨.error (refused path (seen f)), t, []⟩ (save (some f) t path d)
      (save none t path d) := by
  have htarget := target_yields f t path
  unfold saveCalls
  by_cases hcall : f.call ∈ targetCalls t path
  · refine ⟨fun _ => ?_, fun h => absurd (List.mem_append_left _ hcall) h⟩
    rw [save, htarget.failed hcall]
  · rw [save, save, htarget.same hcall]
    cases hl : target none t path with
    | error e => exact ⟨fun h => absurd h (by simp [hcall]), fun _ => rfl⟩
    | ok l =>
      have haccess : f.call ≠ .access := fun h => hcall (h ▸ access_mem_targetCalls hl)
      suffices h : Yields f (writeCalls t l d) _ _ _ from
        ⟨fun hmem => h.failed ((List.mem_append.mp hmem).resolve_left hcall),
          fun hmem => h.same fun hw => hmem (List.mem_append_right _ hw)⟩
      simp only [attempt_none, seen_of_ne haccess, writeCalls]
      by_cases hmake : f.call = .makeTemporary
      · refine ⟨fun _ => by rw [attempt_self hmake], fun h => absurd ?_ h⟩
        cases t.makeTemporary l <;> cases encode d <;> simp [hmake]
      · rw [attempt_of_ne hmake]
        cases hmade : t.makeTemporary l with
        | error e => exact ⟨fun h => absurd h (by simp [hmake]), fun _ => rfl⟩
        | ok made =>
          obtain ⟨temporary, u⟩ := made
          obtain ⟨hfree, rfl, -⟩ := FileTree.makeTemporary_eq_ok hmade
          -- From here on a failure takes the temporary file away again.
          by_cases hdump : f.call = .dump
          · refine ⟨fun _ => ?_, fun h => absurd ?_ h⟩
            · simp only [attempt_self hdump, FileTree.erase_put_of_free hfree]
            · cases encode d <;> simp [hdump]
          · simp only [attempt_of_ne hdump]
            cases encode d with
            | error e => exact ⟨fun h => absurd h (by simp [hmake, hdump]), fun _ => rfl⟩
            | ok content =>
              have hreplace := replaceBy_yields f (t.put temporary (.file [] FileTree.temporaryMode)) temporary l content
              refine ⟨fun h => ?_, fun h => ?_⟩
              · simp only [hreplace.failed (by simpa [hmake, hdump] using h), FileTree.erase_put_of_free hfree]
              · simp only [hreplace.same fun hmem => h (by simp_all)]

/-! ### Requests -/

/-- A request whose fault is at a call that it makes ends with the error, and nothing is left of what it did. --/
theorem patch_yields (f : Fault) (t : FileTree) (request : Request) :
    Yields f (calls t request) ⟨.error (refused (.ofText request.path) (seen f)), t, []⟩
      (patch (some f) t request) (patch none t request) := by
  unfold patch calls
  cases Tag.ofValue request.version with
  | error e => exact ⟨fun h => absurd h List.not_mem_nil, fun _ => rfl⟩
  | ok tag =>
    simp only
    have hload := load_yields f t (.ofText request.path)
    by_cases hcall : f.call ∈ loadCalls t (.ofText request.path)
    · refine ⟨fun _ => ?_, fun h => absurd (List.mem_append_left _ hcall) h⟩
      rw [find, hload.failed hcall, error_bind]
    · have hfind : find (some f) t (.ofText request.path) request.selector =
          find none t (.ofText request.path) request.selector := by
        rw [find, find, hload.same hcall]
      rw [hfind]
      -- The fault is not on loading, so the rest of the request is up to what is found without it.
      cases find none t (.ofText request.path) request.selector with
      | error e => exact ⟨fun h => absurd h (by simp [hcall]), fun _ => rfl⟩
      | ok found =>
        have hsave := save_yields f t (.ofText request.path) (found.tagged tag)
        simp only [apply]
        cases isText found.tag tag.text
        case true => exact ⟨fun h => absurd h (by simp [hcall]), fun _ => rfl⟩
        case false =>
          cases request.dryRun
          case true => exact ⟨fun h => absurd h (by simp [hcall]), fun _ => rfl⟩
          case false =>
            simp only [Bool.false_eq_true, ↓reduceIte]
            refine ⟨fun h => ?_, fun h => ?_⟩
            · have hmem : f.call ∈ saveCalls t (.ofText request.path) (found.tagged tag) := by
                simpa [hcall] using h
              change (saveAndRecord (some f) t (.ofText request.path) (found.tagged tag)).andThen _ = _
              rw [saveAndRecord, hsave.failed hmem]
              rfl
            · have hmem : f.call ∉ saveCalls t (.ofText request.path) (found.tagged tag) := by
                simpa [hcall] using h
              change (saveAndRecord (some f) t (.ofText request.path) (found.tagged tag)).andThen _ =
                (saveAndRecord none t (.ofText request.path) (found.tagged tag)).andThen _
              rw [saveAndRecord, saveAndRecord, hsave.same hmem]

/-- Calls that change files, and the search for what to change, are made only for a document that is to be written. --/
theorem rewrites_of_mem_calls (h : call ∈ calls t request) (hfile : call ≠ .isFile) (hopen : call ≠ .openFile) :
    ∃ d, Rewrites none t request d := by
  have hload : ∀ path, call ∉ loadCalls t path := by
    intro path
    unfold loadCalls
    split <;> simp [hfile, hopen]
  unfold calls at h
  split at h
  · cases h
  · rename_i tag htag
    rcases List.mem_append.mp h with h | h
    · exact absurd h (hload _)
    · split at h
      · cases h
      · rename_i found hfound
        split at h
        · cases h
        · rename_i hchange
          simp only [Bool.or_eq_true, not_or, Bool.not_eq_true] at hchange
          exact ⟨_, tag, found, htag, hfound, hchange.1, hchange.2, rfl⟩

/-- A fault at a call that a request makes is what the caller is told, with its cause for a reason or else its text, and
    the tree is left as it was; a fault at another call makes no difference. The calls from the resolving of the path
    on are made only for a version that is a tag, an entry that was found, another tag in it, and no dry run. --/
theorem patch_fault (f : Fault) (t : FileTree) (request : Request) :
    (f.call ∈ calls t request → patch (some f) t request =
      ⟨.error (.refused (.fileError (Path.ofText request.path).text (seen f))), t, []⟩) ∧
      (f.call ∉ calls t request → patch (some f) t request = patch none t request) ∧
      (seen f).reason = (if f.call = .access then "Permission denied"
        else if f.error.cause = "" then f.error.whole else f.error.cause) ∧
      ∀ call ∈ calls t request, call = .isFile ∨ call = .openFile ∨ ∃ d, Rewrites none t request d := by
  have h := patch_yields f t request
  refine ⟨h.failed, h.same, ?_, fun call hcall => ?_⟩
  · unfold seen
    split
    · rfl
    · rfl
  · by_cases hfile : call = .isFile
    · exact .inl hfile
    · by_cases hopen : call = .openFile
      · exact .inr (.inl hopen)
      · exact .inr (.inr (rewrites_of_mem_calls hcall hfile hopen))

end Retag.Manifest

import Retag.Hook
import Retag.CommandLine.Run
import Retag.Proofs.Manifest.Fault

/-! The calls behind the hook and behind a command line. Both come down to the calls of one request, or of one reading;
    a fault shows exactly at a call that is made. -/

namespace Retag

variable [Host]

namespace Hook
open Files Manifest

/-- The calls that the hook makes, in order. --/
def calls (t : FileTree) (settings : Settings) (properties : Properties) : List Call :=
  match version properties with
  | .error _ => []
  | .ok s => Manifest.calls t (request settings s)

/-- A fault at a call that the hook makes is what it fails with; a fault at another call makes no difference. --/
theorem preCommit_fault (f : Fault) (t : FileTree) (settings : Settings) (properties : Properties) :
    (f.call ∈ calls t settings properties → (preCommit (some f) t settings properties).result =
      .error (.refused (.fileError (Path.ofText settings.manifestPath).text (seen f)))) ∧
      (f.call ∉ calls t settings properties →
        preCommit (some f) t settings properties = preCommit none t settings properties) := by
  unfold preCommit calls
  cases version properties with
  | error e => exact ⟨fun h => absurd h List.not_mem_nil, fun _ => rfl⟩
  | ok s =>
    have hyields := patch_yields f t (request settings s)
    refine ⟨fun h => ?_, fun h => ?_⟩
    · simp only [patch, hyields.failed h]
      rfl
    · simp only [patch, hyields.same h]

end Hook

namespace CommandLine
open Files Manifest

/-- The calls that a command line leads to, in order. --/
def calls (t : FileTree) (settings : Settings) (words : List String) : List Call :=
  match arguments words with
  | .error _ => []
  | .ok a => match a.command with
    | .patch => Manifest.calls t (request settings a)
    | .query => loadCalls t (.ofText (pathText settings a))

theorem tagOf_yields (f : Fault) (t : FileTree) (path : String) (selector : Option String) :
    Yields f (loadCalls t (.ofText path)) (.error (refused (.ofText path) (seen f)))
      (tagOf (some f) t path selector) (tagOf none t path selector) := by
  have hload := load_yields f t (.ofText path)
  exact ⟨fun h => by rw [tagOf, find, hload.failed h, error_bind, error_bind],
    fun h => by rw [tagOf, find, hload.same h, tagOf, find]⟩

/-- A fault at a call that a command line leads to is printed as an error, and nothing else happens; a fault at another
    call makes no difference. --/
theorem run_fault (f : Fault) (t : FileTree) (settings : Settings) (words : List String) :
    (f.call ∈ calls t settings words → ∃ path : Path,
      let why := Refusal.fileError path.text (seen f)
      run (some f) t settings words =
        { ending := .returned 1, error := "error: " ++ why.message ++ "\n", tree := t }) ∧
      (f.call ∉ calls t settings words → run (some f) t settings words = run none t settings words) := by
  unfold run calls
  cases arguments words with
  | error stop => exact ⟨fun h => absurd h List.not_mem_nil, fun _ => rfl⟩
  | ok a =>
    simp only [execute]
    cases a.command with
    | patch =>
      have hyields := patch_yields f t (request settings a)
      refine ⟨fun h => ⟨.ofText (pathText settings a), ?_⟩, fun h => ?_⟩
      · simp only [hyields.failed h]
        rfl
      · simp only [hyields.same h]
    | query =>
      have hyields := tagOf_yields f t (pathText settings a) (selector settings a)
      refine ⟨fun h => ⟨.ofText (pathText settings a), ?_⟩, fun h => ?_⟩
      · simp only [hyields.failed h]
        rfl
      · simp only [hyields.same h]

end CommandLine
end Retag

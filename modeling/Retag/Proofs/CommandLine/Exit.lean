import Retag.Proofs.CommandLine.Run
import Retag.Proofs.Manifest.Effect

/-! Exit codes. A run whose command line is in order returns one exactly if its command is refused, and then nothing has
    happened but that the refusal is printed; it returns zero exactly if the command succeeds. -/

namespace Retag

namespace Manifest
open Files

variable [Host] {fault : Option Fault} {t : FileTree} {request : Request}

end Manifest

namespace CommandLine
open Files Manifest

variable [Host] {fault : Option Fault} {t : FileTree} {settings : Settings} {words : List String} {a : Arguments}

section

variable {α : Type} {line : α → Text.Wobbly} {o : Outcome α}

theorem ending_ofOutcome_eq_zero_iff :
    (Report.ofOutcome line o).ending = .returned 0 ↔ ∃ x, o.result = .ok x ∧ Host.takes (line x) = true := by
  unfold Report.ofOutcome
  rcases o.result with (_ | _) | x
  · simp
  · simp
  · cases htakes : Host.takes (line x) <;> simp [htakes]

theorem output_ofOutcome_eq_iff {s : Text.Wobbly} (hs : s ≠ .whole "") : (Report.ofOutcome line o).output = s ↔
    ∃ x, o.result = .ok x ∧ Host.takes (line x) = true ∧ line x ++ ("\n" : Text.Wobbly) = s := by
  unfold Report.ofOutcome
  rcases o.result with (_ | _) | x
  · simp [Ne.symm hs]
  · simp [Ne.symm hs]
  · cases htakes : Host.takes (line x) <;> simp [htakes, Ne.symm hs]

theorem tree_ofOutcome (line : α → Text.Wobbly) (o : Outcome α) : (Report.ofOutcome line o).tree = o.tree := by
  unfold Report.ofOutcome
  split
  · split <;> rfl
  · rfl
  · rfl

end

/-- A tag that is half of a pair on its own is found, but the output does not take it. --/
example :
    let _ : Host := .ample
    let t : FileTree :=
      { nodes := [(["k.yaml"], .file (Text.encode "images:\n- newTag: \"\\uD800\"\n".toList) 0o644)] }
    let settings : Settings := ⟨"k.yaml", none, "INFO", .text, "hook", "1", "dev"⟩
    (run none t settings ["show"]).ending = .broken .unencodable := by
  decide +kernel

end CommandLine
end Retag

import Retag.Hook
import Retag.Proofs.CommandLine.Arguments
import Retag.Proofs.CommandLine.Exit

/-! The hook and the command line. Each of them checks the version in its own way and comes to the same request, so a
    release patches its manifest alike through either of them. -/

namespace Retag

/-! ### Kinds of refusals -/

inductive Refusal.Kind where
  | version
  | notFound
  | malformed
  | fileError
  deriving DecidableEq

def Refusal.kind : Refusal → Kind
  | .version _ => .version
  | .notFound _ => .notFound
  | .malformed _ _ => .malformed
  | .fileError _ _ => .fileError

namespace Hook
open Files Manifest CommandLine

/-- Two results are alike: they are the same, or both refuse the version, each in its words. --/
inductive Alike : Except Failure Patched → Except Failure Patched → Prop where
  | same (x : Except Failure Patched) : Alike x x
  | version (why why' : BadVersion) : Alike (.error (.refused (.version why))) (.error (.refused (.version why')))

namespace Alike

variable {x y : Except Failure Patched}

theorem symm (h : Alike x y) : Alike y x := by
  cases h with
  | same _ => exact .same _
  | version why why' => exact .version why' why

theorem refused (h : Alike x y) {why : Refusal} (hx : x = .error (.refused why)) :
    ∃ why', y = .error (.refused why') ∧ why'.kind = why.kind := by
  cases h with
  | same _ => exact ⟨why, hx, rfl⟩
  | version _ why' =>
    cases hx
    exact ⟨.version why', rfl, rfl⟩

end Alike

/-! ### One operation -/

variable [Host] {settings : Settings} {properties : Properties} {v : String}

/-- The arguments that ask for what the hook does. --/
def arguments (v : String) : Arguments :=
  { command := .patch, version := .text v }

/-- The line that the command line prints of what was patched. --/
def printed (settings : Settings) (v : String) (p : Patched) : Text.Wobbly :=
  patchedLine settings (arguments v) p

end Hook
end Retag

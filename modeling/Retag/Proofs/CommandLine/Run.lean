import Retag.CommandLine.Run
import Retag.Proofs.Manifest.Load
import Retag.Proofs.Manifest.Patch

/-! What can stop a run. Everything that a file tree, a fault, a manifest or a version can do ends in a refusal, with
    four exceptions: a manifest that cannot be read through, a tag that cannot be shown, a document that cannot be
    written, and a line that the output does not take. -/

namespace Retag

namespace Manifest
open Files

variable [Host] {fault : Option Fault} {t : FileTree} {request : Request} {why : Breakdown}

/-- Saving to a path that was loaded breaks down only at the writing of the document. --/
theorem patch_failed_of_broken {d : Document} {u : FileTree} (ht : t.HasNames) (hr : Rewrites fault t request d)
    (hs : save fault t (.ofText request.path) d = ⟨.error (.broken why), u, []⟩) :
    ∃ temporary, Strands fault t request temporary why := by
  have hends := save_ends fault t (.ofText request.path) d
  rw [hs] at hends
  cases hends with
  | noTarget _ he =>
    obtain ⟨tag, found, -, hf, -⟩ := hr
    unfold find at hf
    obtain ⟨d', hl, -⟩ := bind_eq_ok.mp hf
    obtain ⟨fe, h⟩ := target_of_load ht hl he
    cases h
  | stranded l temporary _ hw he => exact ⟨temporary, d, l, hr, hw, encode_eq_error_iff.mp he⟩

/-- Patching breaks down exactly if, with a version that is a tag, finding the entry does, or if the document strands
    its temporary file. --/
theorem patch_eq_broken_iff (ht : t.HasNames) : (patch fault t request).result = .error (.broken why) ↔
    (∃ tag, Tag.ofValue request.version = .ok tag ∧
      find fault t (.ofText request.path) request.selector = .error (.broken why)) ∨
      ∃ temporary, Strands fault t request temporary why := by
  constructor
  · intro h
    have hends := patch_ends fault t request
    generalize patch fault t request = o at h hends
    cases hends with
    | rejected _ _ => cases h
    | lost tag e hv hf =>
      cases h
      exact Or.inl ⟨tag, hv, hf⟩
    | kept _ _ _ _ _ _ _ => cases h
    | failed d e u hr hs =>
      cases h
      exact Or.inr (patch_failed_of_broken ht hr hs)
    | done _ _ _ _ _ _ _ => cases h
  · rintro (⟨tag, hv, hf⟩ | ⟨temporary, hst⟩)
    · simp [patch, hv, hf]
    · exact (patch_of_strands hst).1

namespace Outcome

omit [Host] in
/-- An outcome with another result of a success. --/
def map {α β : Type} (f : α → β) (o : Outcome α) : Outcome β :=
  { o with result := o.result.map f }

end Outcome

/-- Asking for a tag breaks down exactly if finding it does. --/
theorem tagOf_eq_broken_iff {path : String} {selector : Option String} :
    tagOf fault t path selector = .error (.broken why) ↔
      find fault t (.ofText path) selector = .error (.broken why) := by
  unfold tagOf
  cases find fault t (.ofText path) selector <;> simp

end Manifest

namespace CommandLine
open Files Manifest

variable [Host] {fault : Option Fault} {t : FileTree} {settings : Settings} {words : List String} {why : Breakdown}

/-! ### Commands -/

/-- What the command of arguments gives: what was patched, or the tag that was asked for. --/
def outcome (fault : Option Fault) (t : FileTree) (settings : Settings) (a : Arguments) :
    Outcome (Patched ⊕ Option Text.Wobbly) :=
  match a.command with
  | .patch => (patch fault t (request settings a)).map .inl
  | .query => Outcome.map .inr ⟨tagOf fault t (pathText settings a) (selector settings a), t, []⟩

/-- The line that is printed of what a command gives. --/
def line (settings : Settings) (a : Arguments) : Patched ⊕ Option Text.Wobbly → Text.Wobbly :=
  Sum.elim (patchedLine settings a) tagLine

section

variable {α β : Type} {line : α → Text.Wobbly} {o : Outcome α}

theorem ofOutcome_map (line : β → Text.Wobbly) (f : α → β) (o : Outcome α) :
    Report.ofOutcome line (o.map f) = .ofOutcome (line ∘ f) o := by
  unfold Report.ofOutcome Outcome.map
  rcases o.result with (_ | _) | _ <;> rfl

/-- An outcome is reported by zero, one or the breakdown. --/
theorem ending_ofOutcome (line : α → Text.Wobbly) (o : Outcome α) :
    (Report.ofOutcome line o).ending = .returned 0 ∨ (Report.ofOutcome line o).ending = .returned 1 ∨
      ∃ why, (Report.ofOutcome line o).ending = .broken why := by
  unfold Report.ofOutcome
  split
  · split
    · exact .inl rfl
    · exact .inr (.inr ⟨_, rfl⟩)
  · exact .inr (.inl rfl)
  · exact .inr (.inr ⟨_, rfl⟩)

theorem ending_ofOutcome_eq_broken_iff : (Report.ofOutcome line o).ending = .broken why ↔
    o.result = .error (.broken why) ∨
      (why = .unencodable ∧ ∃ x, o.result = .ok x ∧ Host.takes (line x) = false) := by
  unfold Report.ofOutcome
  rcases o.result with (_ | _) | x
  · simp
  · simp
  · cases htakes : Host.takes (line x) <;> simp [htakes, @eq_comm _ why]

end

theorem execute_eq (fault : Option Fault) (t : FileTree) (settings : Settings) (a : Arguments) :
    execute fault t settings a = .ofOutcome (line settings a) (outcome fault t settings a) := by
  unfold execute outcome line
  cases a.command with
  | patch => simp only [ofOutcome_map, Sum.elim_comp_inl]
  | query => simp only [ofOutcome_map, Sum.elim_comp_inr]

/-! ### Breakdowns -/

/-- What arguments ask for breaks down. --/
inductive Stops (fault : Option Fault) (t : FileTree) (settings : Settings) (a : Arguments) : Breakdown → Prop where
  /-- The manifest cannot be read through. --/
  | reading {why : Breakdown} (hv : a.command = .patch → ∃ tag, Tag.ofValue a.version.value = .ok tag)
      (h : ReadingBreaks fault t (.ofText (pathText settings a)) why) : Stops fault t settings a why
  /-- The tag has no text. --/
  | showing {why : Breakdown} (hv : a.command = .patch → ∃ tag, Tag.ofValue a.version.value = .ok tag)
      (h : ShowingBreaks fault t (.ofText (pathText settings a)) (selector settings a) why) :
      Stops fault t settings a why
  /-- The document that is to be written cannot be. --/
  | writing {why : Breakdown} {temporary : Location} (hc : a.command = .patch)
      (h : Strands fault t (request settings a) temporary why) : Stops fault t settings a why
  /-- All was done, and the output does not take the line that says so. --/
  | printing {given : Patched ⊕ Option Text.Wobbly} (h : (outcome fault t settings a).result = .ok given)
      (hline : Host.takes (line settings a given) = false) : Stops fault t settings a .unencodable

theorem outcome_eq_broken_iff {a : Arguments} (ht : t.HasNames) :
    (outcome fault t settings a).result = .error (.broken why) ↔
      (a.command = .patch → ∃ tag, Tag.ofValue a.version.value = .ok tag) ∧
          (ReadingBreaks fault t (.ofText (pathText settings a)) why ∨
            ShowingBreaks fault t (.ofText (pathText settings a)) (selector settings a) why) ∨
        (a.command = .patch ∧ ∃ temporary, Strands fault t (request settings a) temporary why) := by
  unfold outcome
  cases a.command with
  | patch =>
    simp only [Outcome.map, map_eq_error, patch_eq_broken_iff ht, find_eq_broken_iff, request, forall_const, true_and,
      exists_and_right]
  | query =>
    simp only [Outcome.map, map_eq_error, tagOf_eq_broken_iff, find_eq_broken_iff, reduceCtorEq, IsEmpty.forall_iff,
      true_and, false_and, or_false]

/-- Doing what arguments ask for breaks down exactly if it stops for one of these reasons. --/
theorem execute_broken_iff {a : Arguments} (ht : t.HasNames) :
    (execute fault t settings a).ending = .broken why ↔ Stops fault t settings a why := by
  rw [execute_eq, ending_ofOutcome_eq_broken_iff, outcome_eq_broken_iff ht]
  constructor
  · rintro ((⟨hv, h | h⟩ | ⟨hc, temporary, h⟩) | ⟨rfl, given, h, hline⟩)
    · exact .reading hv h
    · exact .showing hv h
    · exact .writing hc h
    · exact .printing h hline
  · intro h
    cases h with
    | reading hv h => exact .inl (.inl ⟨hv, .inl h⟩)
    | showing hv h => exact .inl (.inl ⟨hv, .inr h⟩)
    | writing hc h => exact .inl (.inr ⟨hc, _, h⟩)
    | printing h hline => exact .inr ⟨rfl, _, h, hline⟩

/-- Loading, patching and asking are refused in the words of the domain, and a run exits as its command line says or
    returns zero or one, unless they break down. They break down exactly if the manifest cannot be read through, since
    it holds an escape or a value that is impossible or the stack has no room for it; if the tag cannot be shown; if the
    document cannot be written; or if the output does not take the line that is printed. --/
theorem breakdowns (ht : t.HasNames) (fault : Option Fault) :
    (∀ path e, load fault t path = .error e →
      e = .refused (.notFound path.text) ∨ (∃ why, e = .refused (.malformed path.text why)) ∨
        (∃ fe, e = refused path fe) ∨ ∃ why, e = .broken why ∧ ReadingBreaks fault t path why) ∧
    (∀ request why, (patch fault t request).result = .error (.broken why) ↔
      (∃ tag, Tag.ofValue request.version = .ok tag ∧ (ReadingBreaks fault t (.ofText request.path) why ∨
        ShowingBreaks fault t (.ofText request.path) request.selector why)) ∨
        ∃ temporary, Strands fault t request temporary why) ∧
    (∀ path selector why, tagOf fault t path selector = .error (.broken why) ↔
      ReadingBreaks fault t (.ofText path) why ∨ ShowingBreaks fault t (.ofText path) selector why) ∧
    ∀ settings words,
      ((∃ code, (run fault t settings words).ending = .exited code) ∨
        (run fault t settings words).ending = .returned 0 ∨ (run fault t settings words).ending = .returned 1 ∨
        ∃ why, (run fault t settings words).ending = .broken why) ∧
      ∀ why, (run fault t settings words).ending = .broken why ↔
        ∃ a, arguments words = .ok a ∧ Stops fault t settings a why := by
  refine ⟨fun path e h => ?_, fun request why => ?_, fun path selector why => ?_, fun settings words => ?_⟩
  · cases e with
    | broken why => exact Or.inr (Or.inr (Or.inr ⟨why, rfl, load_eq_broken_iff.mp h⟩))
    | refused refusal =>
      rcases load_eq_refused h with rfl | ⟨why, rfl⟩ | ⟨fe, rfl⟩
      · exact Or.inl rfl
      · exact Or.inr (Or.inl ⟨why, rfl⟩)
      · exact Or.inr (Or.inr (Or.inl ⟨fe, rfl⟩))
  · rw [patch_eq_broken_iff ht]
    simp only [find_eq_broken_iff]
  · rw [tagOf_eq_broken_iff, find_eq_broken_iff]
  · unfold run
    cases ha : arguments words with
    | error stop => exact ⟨Or.inl ⟨stop.code, rfl⟩, fun why => by simp [Report.ofStop]⟩
    | ok a =>
      refine ⟨Or.inr ?_, fun why => ?_⟩
      · simp only [execute_eq]
        exact ending_ofOutcome _ _
      · simp only [execute_broken_iff ht, Except.ok.injEq, exists_eq_left']

omit [Host] in
/-- A manifest with the thirteenth month in it cannot be asked for its tag. --/
theorem breakdowns_thirteenth_month :
    let _ : Host := .ample
    let t : FileTree :=
      { nodes := [(["k.yaml"], .file ("k: 2024-13-01\n".toList.map fun c => UInt8.ofNat c.toNat) 0o644)] }
    let settings : Settings := ⟨"k.yaml", none, "INFO", .text, "hook", "1", "dev"⟩
    (run none t settings ["show"]).ending = .broken .impossibleDate ∧
      ∃ a, arguments ["show"] = .ok a ∧ Stops none t settings a .impossibleDate := by
  intro host t settings
  have ht : t.HasNames := fun name hn => by cases hn
  have h : (run none t settings ["show"]).ending = .broken .impossibleDate := by decide +kernel
  exact ⟨h, (((breakdowns ht none).2.2.2 settings ["show"]).2 .impossibleDate).mp h⟩

end CommandLine
end Retag

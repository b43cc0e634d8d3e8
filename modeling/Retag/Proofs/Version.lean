import Retag.Proofs.CommandLine.Calls
import Retag.Proofs.Hook

/-! Versions come first. Whether a version is a tag is a matter of its characters alone. Any other version is refused
    before the manifest is looked for, by the same error whatever stands in the files, in the settings and in the rest
    of the request; no call is made, so no fault can show either. -/

namespace Retag

namespace Tag
open Text

/-- A version that is a tag: a text of at most 128 characters, in front a letter or digit of ASCII or an underscore,
    and behind it these, points and hyphens. --/
inductive Grammatical : Value → Prop where
  | text {c : Char} {rest : List Char} (hc : c.isAlphanum = true ∨ c = '_')
      (hrest : ∀ x ∈ rest, x.isAlphanum = true ∨ x = '_' ∨ x = '.' ∨ x = '-') (hlength : (c :: rest).length ≤ 128) :
      Grammatical (.str (String.ofList (c :: rest)))

/-- The quotes, and the characters that mean something to a shell. --/
def shellSigns : List Char :=
  "\"'`|&;<>()[]$\\*?#~=%!^\x7b\x7d".toList

variable {v : Value} {c : Char} {s : String}

theorem isStart_iff : isStart c = true ↔ c.isAlphanum = true ∨ c = '_' := by
  have hline : c = '_' ↔ c.toNat = 95 := by
    rw [← Char.toNat_inj]
    rfl
  rw [hline]
  delta Char.isAlphanum Char.isAlpha Char.isUpper Char.isLower Char.isDigit
  simp only [isStart, Bool.or_eq_true, Bool.and_eq_true, decide_eq_true_eq, beq_iff_eq, ge_iff_le,
    UInt32.le_iff_toNat_le]
  change _ ↔ (((65 ≤ c.toNat ∧ c.toNat ≤ 90) ∨ (97 ≤ c.toNat ∧ c.toNat ≤ 122)) ∨ (48 ≤ c.toNat ∧ c.toNat ≤ 57)) ∨ _
  omega

theorem isInner_iff : isInner c = true ↔ c.isAlphanum = true ∨ c = '_' ∨ c = '.' ∨ c = '-' := by
  simp only [isInner, Bool.or_eq_true, beq_iff_eq, isStart_iff, or_assoc]

theorem isTag_iff : isTag s.toList = true ↔ Grammatical (.str s) := by
  constructor
  · intro h
    cases hs : s.toList with
    | nil =>
      rw [hs] at h
      cases h
    | cons c rest =>
      rw [hs] at h
      simp only [isTag, Bool.and_eq_true, List.all_eq_true, decide_eq_true_eq, isStart_iff, isInner_iff] at h
      obtain ⟨⟨hc, hrest⟩, hlength⟩ := h
      rw [← String.ofList_toList (s := s), hs]
      exact .text hc hrest (Nat.succ_le_succ hlength)
  · generalize hv : Value.str s = v
    rintro ⟨hc, hrest, hlength⟩
    cases hv
    rw [String.toList_ofList]
    simp only [isTag, Bool.and_eq_true, List.all_eq_true, decide_eq_true_eq, isStart_iff, isInner_iff]
    exact ⟨⟨hc, hrest⟩, Nat.le_of_succ_le_succ hlength⟩

/-- Exactly the versions that follow the grammar are taken for tags. --/
theorem exists_ofValue_iff : (∃ tag, ofValue v = .ok tag) ↔ Grammatical v := by
  simp only [ofValue_eq_ok]
  constructor
  · rintro ⟨tag, rfl⟩
    exact isTag_iff.mp tag.valid
  · intro h
    cases h with
    | text hc hrest hlength => exact ⟨⟨_, isTag_iff.mpr (.text hc hrest hlength)⟩, rfl⟩

theorem exists_ofValue_eq_error_iff : (∃ why, ofValue v = .error why) ↔ ¬Grammatical v := by
  rw [← exists_ofValue_iff]
  cases ofValue v with
  | error why => simp
  | ok tag => simp

theorem not_isBlank_of_isInner (h : isInner c = true) : isBlank c = false := by
  simp only [isInner, Bool.or_eq_true, beq_iff_eq] at h
  rcases h with (h | rfl) | rfl
  · exact not_isBlank_of_isStart h
  · decide
  · decide

theorem not_mem_shellSigns_of_isInner (h : isInner c = true) : c ∉ shellSigns := by
  have hsigns : (shellSigns.all fun x => !isInner x) = true := by decide
  intro hc
  have hnot := List.all_eq_true.mp hsigns c hc
  rw [h] at hnot
  cases hnot

/-- A tag holds no blank, no line end, no quote and no sign of a shell, at its end neither. --/
theorem Grammatical.harmless (h : Grammatical (.str s)) (hc : c ∈ s.toList) :
    isBlank c = false ∧ c ∉ shellSigns := by
  have hinner : isInner c = true := by
    have htag := isTag_iff.mpr h
    cases hs : s.toList with
    | nil =>
      rw [hs] at hc
      cases hc
    | cons first rest =>
      rw [hs] at hc htag
      simp only [isTag, Bool.and_eq_true, List.all_eq_true] at htag
      rcases List.mem_cons.mp hc with rfl | hrest
      · rw [isInner, htag.1.1, Bool.true_or, Bool.true_or]
      · exact htag.1.2 c hrest
  exact ⟨not_isBlank_of_isInner hinner, not_mem_shellSigns_of_isInner hinner⟩

end Tag

/-! ### The request -/

namespace Manifest
open Files

variable [Host] {fault : Option Fault} {t : FileTree} {path : Path} {selector : Option String} {d : Document}
  {request : Request} {why : BadVersion}

theorem find_ne_version : find fault t path selector ≠ .error (.refused (.version why)) := by
  intro h
  rcases bind_eq_error.mp h with hload | ⟨d, -, hrest⟩
  · rcases load_eq_refused hload with he | ⟨_, he⟩ | ⟨_, he⟩
    all_goals cases he
  · rcases bind_eq_error.mp hrest with hlocate | ⟨slot, -, htext⟩
    · cases hslot : locate d selector with
      | error e =>
        rw [hslot] at hlocate
        cases hlocate
      | ok slot =>
        rw [hslot] at hlocate
        cases hlocate
    · rcases bind_eq_error.mp htext with hshown | ⟨_, -, hpure⟩
      · obtain ⟨_, hbroken, -⟩ := tagText?_eq_error_iff.mp hshown
        cases hbroken
      · cases hpure

theorem save_ne_version : (save fault t path d).result ≠ .error (.refused (.version why)) := by
  intro h
  have hends := save_ends fault t path d
  generalize save fault t path d = o at h hends
  cases hends with
  | noTarget e htarget =>
    cases h
    rcases target_eq_error htarget with ⟨_, he⟩ | ⟨he, -⟩ | ⟨he, -⟩
    all_goals cases he
  | undone _ => cases h
  | stranded _ _ _ _ _ => cases h
  | replaced _ _ _ _ _ _ _ _ _ => cases h

/-- A version that is no tag is refused as it is, and nothing else is looked at. --/
theorem patch_of_badVersion (h : Tag.ofValue request.version = .error why) :
    patch fault t request = ⟨.error (.refused (.version why)), t, []⟩ ∧ calls t request = [] := by
  simp only [patch, calls, h, and_self]

/-- Nothing but the version is refused as a version. --/
theorem patch_eq_version_iff :
    (patch fault t request).result = .error (.refused (.version why)) ↔ Tag.ofValue request.version = .error why := by
  refine ⟨fun h => ?_, fun h => by rw [(patch_of_badVersion h).1]⟩
  have hends := patch_ends fault t request
  generalize patch fault t request = o at h hends
  cases hends with
  | rejected _ hversion =>
    cases h
    exact hversion
  | lost _ _ _ hfind =>
    cases h
    exact absurd hfind find_ne_version
  | kept _ _ _ _ _ _ _ => cases h
  | failed d _ _ _ hsave =>
    cases h
    exact absurd (congrArg Outcome.result hsave) save_ne_version
  | done _ _ _ _ _ _ _ => cases h

end Manifest

/-! ### The hook -/

namespace Hook
open Files Manifest

variable {properties : Properties} {v : Value} {why : BadVersion}

/-- The version that a value is for the hook. --/
def versionOf : Value → Except BadVersion Text.Wobbly
  | .scalar (.str s) => if Text.isBlankText s then .error .missing else .ok s
  | .scalar (.torn t) => .ok (.torn t)
  | _ => .error .missing

theorem version_eq (properties : Properties) :
    version properties = versionOf ((properties.lookup versionKey).getD .null) := by
  unfold version
  cases properties.lookup versionKey with
  | none => rfl
  | some v =>
    cases v with
    | scalar v => cases v <;> rfl
    | _ => rfl

/-- What is taken for a version is a text. --/
theorem eq_ofText_of_versionOf {s : Text.Wobbly} (h : versionOf v = .ok s) : v = .ofText s := by
  unfold versionOf at h
  split at h
  · split at h
    · cases h
    · cases h
      rfl
  · cases h
    rfl
  · cases h

variable [Host]

/-- The hook refuses a version that is no tag by an error of this version alone, and keeps no record but that it was
    invoked. --/
theorem preCommit_of_badVersion (h : Tag.ofValue v = .error why) :
    ∃ why' records, (records = [] ∨ ∃ s, records = [invoked s]) ∧
      ∀ fault t settings properties, (properties.lookup versionKey).getD .null = v →
        preCommit fault t settings properties = ⟨.error (.refused (.version why')), t, records⟩ ∧
          calls t settings properties = [] := by
  cases hversion : versionOf v with
  | ok s =>
    refine ⟨why, [invoked s], .inr ⟨s, rfl⟩, fun fault t settings properties hgiven => ?_⟩
    rw [eq_ofText_of_versionOf hversion] at h
    obtain ⟨hpatch, hcalls⟩ := @patch_of_badVersion _ fault t (request settings s) why h
    simp only [preCommit, calls, version_eq, hgiven, hversion, patch, hpatch, hcalls, and_self]
  | error e =>
    refine ⟨e, [], .inl rfl, fun fault t settings properties hgiven => ?_⟩
    simp only [preCommit, calls, version_eq, hgiven, hversion, and_self]

end Hook

/-! ### The command line -/

namespace CommandLine
open Files Manifest

variable [Host] {fault : Option Fault} {t : FileTree} {settings : Settings} {words : List String} {a : Arguments}
  {why : BadVersion}

/-- A version that is no tag is printed as an error, and nothing else happens. --/
theorem run_of_badVersion (ha : arguments words = .ok a) (hc : a.command = .patch)
    (h : Tag.ofValue a.version.value = .error why) :
    run fault t settings words =
        { ending := .returned 1, error := "error: " ++ why.message ++ "\n", tree := t } ∧
      calls t settings words = [] := by
  obtain ⟨hpatch, hcalls⟩ := @patch_of_badVersion _ fault t (request settings a) why h
  simp only [run, calls, ha, execute, hc, hpatch, hcalls]
  exact ⟨rfl, trivial⟩

end CommandLine

/-! ### All ways in -/

namespace CommandLine
open Files Manifest

variable [Host] {s : String}

/-- The version behind an equals sign comes to a request as it is, and two hyphens as no version at all. --/
theorem run_versionWord (h : ¬Tag.Grammatical (.str s)) (fault : Option Fault) (t : FileTree) (settings : Settings) :
    let words := ["pre-commit", "--version=" ++ s]
    let report := run fault t settings words
    report.ending = .returned 1 ∧ report.tree = t ∧ report.records = [] ∧ calls t settings words = [] := by
  intro words report
  have hversion : ∃ why, Tag.ofValue (Operand.ofValue s).value = .error why := by
    unfold Operand.ofValue
    split
    · exact ⟨_, rfl⟩
    · exact Tag.exists_ofValue_eq_error_iff.mpr h
  obtain ⟨why, hwhy⟩ := hversion
  obtain ⟨hrun, hcalls⟩ := @run_of_badVersion _ fault t settings _ _ why (arguments_versionWord s) rfl hwhy
  simp only [report, words, hrun, hcalls, and_self]

end CommandLine

namespace Tag
open Files Manifest

/-- Exactly the versions that do not follow the grammar are refused as versions, and what follows it is harmless to a
    shell. The error, and what the hook keeps a record of, depend on the version alone: whatever the files, the
    settings, the rest of the request and the fault are, no call is made and the files stay as they are. --/
theorem refused_before_calls [Host] (v : Value) :
    (∀ fault t request, request.version = v →
      ((∃ why, (patch fault t request).result = .error (.refused (.version why))) ↔ ¬Grammatical v)) ∧
    (∀ s, v = .str s → Grammatical v → ∀ c ∈ s.toList, Text.isBlank c = false ∧ c ∉ shellSigns) ∧
    (¬Grammatical v → ∃ why,
      (∀ fault t request, request.version = v →
        patch fault t request = ⟨.error (.refused (.version why)), t, []⟩ ∧ calls t request = []) ∧
      (∃ why' records, (records = [] ∨ ∃ s, records = [Hook.invoked s]) ∧
        ∀ fault t settings properties, (properties.lookup Hook.versionKey).getD .null = v →
          Hook.preCommit fault t settings properties = ⟨.error (.refused (.version why')), t, records⟩ ∧
            Hook.calls t settings properties = []) ∧
      (∀ fault t settings words a, CommandLine.arguments words = .ok a → a.command = .patch → a.version.value = v →
        CommandLine.run fault t settings words =
            { ending := .returned 1, error := "error: " ++ why.message ++ "\n", tree := t } ∧
          CommandLine.calls t settings words = []) ∧
      ∀ s, v = .str s → ∀ fault t settings,
        let words := ["pre-commit", "--version=" ++ s]
        let report := CommandLine.run fault t settings words
        report.ending = .returned 1 ∧ report.tree = t ∧ report.records = [] ∧
          CommandLine.calls t settings words = []) := by
  refine ⟨fun fault t request hv => ?_, fun s hs h c hc => ?_, fun h => ?_⟩
  · rw [← exists_ofValue_eq_error_iff, ← hv]
    exact exists_congr fun why => patch_eq_version_iff
  · subst hs
    exact h.harmless hc
  · obtain ⟨why, hwhy⟩ := exists_ofValue_eq_error_iff.mpr h
    refine ⟨why, fun fault t request hv => ?_, Hook.preCommit_of_badVersion hwhy,
      fun fault t settings words a ha hc hv => ?_, fun s hs => ?_⟩
    · exact patch_of_badVersion (hv ▸ hwhy)
    · exact CommandLine.run_of_badVersion ha hc (hv ▸ hwhy)
    · exact CommandLine.run_versionWord (hs ▸ h)

/-- A line end behind a tag is no part of one: the hook refuses it, under a fault too. --/
theorem refused_before_calls_line_end :
    let _ : Host := .ample
    let v := Value.str "1.0\n"
    let t : FileTree :=
      { nodes := [(["k.yaml"], .file ("images:\n- newTag: a\n".toList.map fun c => UInt8.ofNat c.toNat) 0o644)] }
    let settings : Settings := ⟨"k.yaml", none, "INFO", .text, "hook", "1", "dev"⟩
    let hooked := Hook.preCommit (some ⟨.openFile, .denied⟩) t settings [("version", v)]
    let words := ["pre-commit", "--version", "1.0\n"]
    let report := CommandLine.run none t settings words
    ¬Grammatical v ∧ (∃ why, hooked.result = .error (.refused (.version why))) ∧ hooked.tree = t ∧
      report.ending = .returned 1 ∧ report.tree = t := by
  intro host v t settings hooked words report
  have hresult : (patch none t ⟨v, "k.yaml", none, false⟩).result =
      .error (.refused (.version (.badFormat "1.0\n"))) := by rfl
  have hbad : ¬Grammatical v := ((refused_before_calls v).1 none t ⟨v, "k.yaml", none, false⟩ rfl).mp ⟨_, hresult⟩
  have hwords : CommandLine.arguments words = .ok { command := .patch, version := .text "1.0\n" } := by decide +kernel
  obtain ⟨why, -, ⟨why', records, -, hhook⟩, hrun, -⟩ := (refused_before_calls v).2.2 hbad
  obtain ⟨hhooked, -⟩ := hhook (some ⟨.openFile, .denied⟩) t settings [("version", v)] rfl
  obtain ⟨hreport, -⟩ := hrun none t settings words _ hwords rfl rfl
  refine ⟨hbad, ⟨why', ?_⟩, ?_, ?_, ?_⟩
  · exact congrArg Outcome.result hhooked
  · exact congrArg Outcome.tree hhooked
  · exact congrArg CommandLine.Report.ending hreport
  · exact congrArg CommandLine.Report.tree hreport

end Tag
end Retag

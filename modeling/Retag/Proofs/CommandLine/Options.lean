import Mathlib.Data.List.Induction
import Retag.Proofs.CommandLine.Arguments
import Retag.Proofs.CommandLine.Calls
import Retag.Proofs.CommandLine.Exit

/-! Options in any arrangement. Of each option the last value counts, wherever it stands, however often the option is
    given, and whatever the value looks like. The words are read one option at a time, and what an option adds to the
    arguments does not depend on where it stands. -/

namespace Retag.CommandLine

/-! ### Options that are given -/

/-- How an option is given: with its value as a word of its own, which does not start with a hyphen; with its value
    behind an equals sign, which may look like anything but two hyphens; or as the wish for a dry run. --/
inductive Given (c : Command) where
  | apart (f : Flag) (v : String) (hf : f ∈ c.flags) (htakes : f.takesValue = true) (hv : v.toList.head? ≠ some '-')
  | joined (f : Flag) (v : String) (hf : f ∈ c.flags) (htakes : f.takesValue = true) (hv : v ≠ "--")
  | dryRun (hf : Flag.dryRun ∈ c.flags)

namespace Given

variable {c : Command}

/-- The words on the command line. --/
def words : Given c → List String
  | apart f v _ _ _ => [f.long, v]
  | joined f v _ _ _ => [f.long ++ "=" ++ v]
  | dryRun _ => [Flag.dryRun.long]

/-- The value for an option, if it is this option that is given. --/
def value? (f : Flag) : Given c → Option String
  | apart g v _ _ _ | joined g v _ _ _ => if g = f then some v else none
  | dryRun _ => none

def isDryRun : Given c → Bool
  | dryRun _ => true
  | _ => false

/-- What the words are. --/
def tokens : Given c → List Word
  | apart f v _ _ _ => [.flag f none, .operand v]
  | joined f v _ _ _ => [.flag f (some v)]
  | dryRun _ => [.flag .dryRun none]

end Given

/-- The last value that is given for an option. --/
def lastValue {c : Command} (f : Flag) (gs : List (Given c)) : Option String :=
  (gs.filterMap (Given.value? f)).getLast?

namespace Operand

/-- The operand of a value that may be given. --/
def ofLast : Option String → Operand
  | none => .absent
  | some s => .text s

end Operand

namespace Arguments

variable {c : Command}

/-- The arguments that options ask for. --/
def ofGiven (c : Command) (gs : List (Given c)) : Arguments :=
  { command := c, version := .ofLast (lastValue .version gs), file := .ofLast (lastValue .file gs),
    image := .ofLast (lastValue .image gs), dryRun := gs.any Given.isDryRun }

/-- Takes up one option more. --/
def take (a : Arguments) : Given c → Arguments
  | .apart f v _ _ _ | .joined f v _ _ _ => a.set f (.text v)
  | .dryRun _ => { a with dryRun := true }

end Arguments

variable {c : Command} {f : Flag} {a : Arguments} {strays : List String} {v : String}

/-! ### Reading -/

theorem read_long (h : f ∈ c.flags) : read c.flags f.long = .ok (.flag f none) := by
  revert h
  cases c <;> cases f <;> decide

theorem long_ne_separator (f : Flag) : f.long ≠ "--" := by
  cases f <;> decide

theorem read_operand {flags : List Flag} (h : v.toList.head? ≠ some '-') : read flags v = .ok (.operand v) := by
  cases hv : v.toList with
  | nil => simp only [read, hv]
  | cons x rest =>
    have hx : x ≠ '-' := by
      rintro rfl
      rw [hv] at h
      exact h rfl
    simp [read, hv, hx]

theorem readAll_cons {flags : List Flag} {word : String} {w : Word} (hword : word ≠ "--")
    (h : read flags word = .ok w) (rest : List String) :
    readAll flags (word :: rest) = (readAll flags rest).map (w :: ·) := by
  rw [readAll, if_neg hword, h]
  cases readAll flags rest <;> rfl

theorem readAll_given (g : Given c) (rest : List String) :
    readAll c.flags (g.words ++ rest) = (readAll c.flags rest).map (g.tokens ++ ·) := by
  cases g with
  | apart f v hf htakes hv =>
    have hword : v ≠ "--" := by
      rintro rfl
      exact hv rfl
    simp only [Given.words, Given.tokens, List.cons_append, List.nil_append]
    rw [readAll_cons (long_ne_separator f) (read_long hf), readAll_cons hword (read_operand hv)]
    cases readAll c.flags rest <;> rfl
  | joined f v hf htakes hv => exact readAll_valued hf v rest
  | dryRun hf => exact readAll_cons (long_ne_separator .dryRun) (read_long hf) rest

theorem readAll_words (gs : List (Given c)) :
    readAll c.flags (gs.flatMap Given.words) = .ok (gs.flatMap Given.tokens) := by
  induction gs with
  | nil => rfl
  | cons g gs ih => rw [List.flatMap_cons, List.flatMap_cons, readAll_given, ih, map_ok]

/-! ### Taking up -/

theorem collect_given (g : Given c) (rest : List Word) :
    collect a strays (g.tokens ++ rest) = collect (a.take g) strays rest := by
  cases g with
  | apart f v hf htakes hv =>
    -- Whether a value follows an option is decided after the options that take none.
    cases f with
    | help => cases htakes
    | dryRun => cases htakes
    | version => rfl
    | file => rfl
    | image => rfl
  | joined f v hf htakes hv =>
    simp only [Given.tokens, List.cons_append, List.nil_append, collect, htakes, if_true, Operand.ofValue, if_neg hv]
    rfl
  | dryRun hf => rfl

theorem collect_tokens (gs : List (Given c)) (a : Arguments) :
    collect a strays (gs.flatMap Given.tokens) = .ok (gs.foldl Arguments.take a, strays) := by
  induction gs generalizing a with
  | nil => rfl
  | cons g gs ih => rw [List.flatMap_cons, collect_given, ih, List.foldl_cons]

theorem lastValue_concat (f : Flag) (gs : List (Given c)) (g : Given c) :
    lastValue f (gs ++ [g]) = (g.value? f).or (lastValue f gs) := by
  unfold lastValue
  rw [List.filterMap_append]
  cases hv : g.value? f with
  | none => simp [hv]
  | some v => simp [hv]

theorem lastValue_of_not_mem (h : f ∉ c.flags) (gs : List (Given c)) : lastValue f gs = none := by
  have hvalue : ∀ g ∈ gs, Given.value? f g = none := by
    intro g _
    cases g with
    | apart x v hf _ _ => exact if_neg fun hx : x = f => h (hx ▸ hf)
    | joined x v hf _ _ => exact if_neg fun hx : x = f => h (hx ▸ hf)
    | dryRun _ => rfl
  rw [lastValue, List.filterMap_eq_nil_iff.mpr hvalue, List.getLast?_nil]

theorem any_isDryRun_of_not_mem (h : Flag.dryRun ∉ c.flags) (gs : List (Given c)) :
    gs.any Given.isDryRun = false := by
  rw [List.any_eq_false]
  intro g _
  cases g with
  | apart _ _ _ _ _ => exact Bool.false_ne_true
  | joined _ _ _ _ _ => exact Bool.false_ne_true
  | dryRun hf => exact absurd hf h

theorem ofGiven_concat_value {g : Given c} (hvalue : ∀ x, g.value? x = if f = x then some v else none)
    (hdry : g.isDryRun = false) (gs : List (Given c)) :
    Arguments.ofGiven c (gs ++ [g]) = (Arguments.ofGiven c gs).set f (.text v) := by
  simp only [Arguments.ofGiven, lastValue_concat, hvalue, List.any_append, List.any_cons, List.any_nil, hdry,
    Bool.or_false]
  cases f <;> simp [Arguments.set, Operand.ofLast]

theorem ofGiven_concat (gs : List (Given c)) (g : Given c) :
    Arguments.ofGiven c (gs ++ [g]) = (Arguments.ofGiven c gs).take g := by
  cases g with
  | apart f v _ _ _ => exact ofGiven_concat_value (fun _ => rfl) rfl gs
  | joined f v _ _ _ => exact ofGiven_concat_value (fun _ => rfl) rfl gs
  | dryRun hf =>
    simp [Arguments.ofGiven, lastValue_concat, Given.value?, Given.isDryRun, Arguments.take]

/-- Taking up options one by one comes to the last value of each. --/
theorem foldl_take (c : Command) (gs : List (Given c)) :
    gs.foldl Arguments.take { command := c } = Arguments.ofGiven c gs := by
  induction gs using List.reverseRecOn with
  | nil => rfl
  | append_singleton gs g ih => rw [List.foldl_append, ih, ofGiven_concat]; rfl

/-! ### All of a command line -/

theorem ofLast_eq_absent {o : Option String} : Operand.ofLast o = .absent ↔ o = none := by
  cases o <;> simp [Operand.ofLast]

theorem text?_ofLast (o : Option String) : (Operand.ofLast o).text? = o.filter (· ≠ "") := by
  cases o with
  | none => rfl
  | some s => by_cases hs : s = "" <;> simp [Operand.ofLast, Operand.text?, Option.filter, hs]

theorem ofCommand_given (gs : List (Given c)) :
    ofCommand c (gs.flatMap Given.words) =
      if c = .patch ∧ lastValue .version gs = none then .error (.complaint (.command c) .versionMissing)
      else .ok (.ofGiven c gs, []) := by
  unfold ofCommand
  simp only [readAll_words, mapError_ok, ok_bind, collect_tokens, foldl_take, Bool.and_eq_true, decide_eq_true_eq]
  have hversion : (Arguments.ofGiven c gs).version = .absent ↔ lastValue .version gs = none := ofLast_eq_absent
  simp only [hversion]
  split
  · rfl
  · rfl

theorem arguments_of_command_error {stop : Stop} {words : List String} (h : ofCommand c words = .error stop) :
    arguments (c.word :: words) = .error stop := by
  have hword : c.word ≠ "--" := by cases c <;> decide
  have hread : read [.help] c.word = .ok (.operand c.word) := by cases c <;> rfl
  simp only [arguments, argumentsFrom, if_neg hword, hread, ofOperand, Command.ofWord?_word, h, error_bind]

theorem arguments_given (gs : List (Given c)) :
    arguments (c.word :: gs.flatMap Given.words) =
      if c = .patch ∧ lastValue .version gs = none then .error (.complaint (.command c) .versionMissing)
      else .ok (.ofGiven c gs) := by
  by_cases h : c = .patch ∧ lastValue .version gs = none
  · rw [if_pos h, arguments_of_command_error (by rw [ofCommand_given, if_pos h])]
  · rw [if_neg h, arguments_of_command (by rw [ofCommand_given, if_neg h])]

/-! ### What is asked for -/

section

open Files Manifest

variable {fault : Option Fault} {t : FileTree} {settings : Settings}

/-- The path that options name, or else the settings. --/
def lastPath (settings : Settings) (gs : List (Given c)) : String :=
  ((lastValue .file gs).filter (· ≠ "")).getD settings.manifestPath

/-- The image that options name, or else the settings; none for the first entry. --/
def lastImage (settings : Settings) (gs : List (Given c)) : Option String :=
  ((lastValue .image gs).filter (· ≠ "")).or settings.imageName

theorem pathText_ofGiven (settings : Settings) (gs : List (Given c)) :
    pathText settings (.ofGiven c gs) = lastPath settings gs := by
  simp only [pathText, Arguments.ofGiven, text?_ofLast, lastPath]

theorem selector_ofGiven (settings : Settings) (gs : List (Given c)) :
    selector settings (.ofGiven c gs) = lastImage settings gs := by
  simp only [selector, Arguments.ofGiven, text?_ofLast, lastImage]

theorem request_ofGiven {gs : List (Given c)} (h : lastValue .version gs = some v) :
    request settings (.ofGiven c gs) =
      ⟨.str v, lastPath settings gs, lastImage settings gs, gs.any Given.isDryRun⟩ := by
  rw [request, pathText_ofGiven, selector_ofGiven]
  simp only [Arguments.ofGiven, h, Operand.ofLast, Operand.value]

/-- A patch is asked for with the last version that is given, for the last path and the last image, or else those of
    the settings where none or an empty one is given, and as a dry run if this is wished for anywhere. Without a version
    nothing is done at all. The tag is asked for by the last path and the last image likewise. --/
theorem last_values_count [Host] (fault : Option Fault) (t : FileTree) (settings : Settings) :
    (∀ gs : List (Given .patch),
      let words := "pre-commit" :: gs.flatMap Given.words
      (∀ v, lastValue .version gs = some v →
        let a : Arguments :=
          ⟨.patch, .text v, .ofLast (lastValue .file gs), .ofLast (lastValue .image gs), gs.any Given.isDryRun⟩
        arguments words = .ok a ∧ run fault t settings words = .ofOutcome (patchedLine settings a)
          (patch fault t ⟨.str v, lastPath settings gs, lastImage settings gs, gs.any Given.isDryRun⟩)) ∧
      (lastValue .version gs = none →
        arguments words = .error (.complaint (.command .patch) .versionMissing) ∧
        (run fault t settings words).ending = .exited 2 ∧ (run fault t settings words).tree = t ∧
        (run fault t settings words).records = [] ∧ calls t settings words = [])) ∧
    ∀ gs : List (Given .query),
      let words := "show" :: gs.flatMap Given.words
      arguments words = .ok ⟨.query, .absent, .ofLast (lastValue .file gs), .ofLast (lastValue .image gs), false⟩ ∧
      run fault t settings words =
        .ofOutcome tagLine ⟨tagOf fault t (lastPath settings gs) (lastImage settings gs), t, []⟩ := by
  refine ⟨fun gs => ?_, fun gs => ?_⟩
  · intro words
    have hwords : arguments words = _ := @arguments_given .patch gs
    refine ⟨fun v hv => ?_, fun hnone => ?_⟩
    · intro a
      have hgiven : Arguments.ofGiven .patch gs = a := by
        simp only [Arguments.ofGiven, hv, Operand.ofLast, a]
      rw [if_neg (by simp [hv]), hgiven] at hwords
      refine ⟨hwords, ?_⟩
      simp only [run, hwords, execute, ← hgiven, request_ofGiven hv]
      rfl
    · rw [if_pos ⟨rfl, hnone⟩] at hwords
      simp only [run, calls, hwords]
      exact ⟨trivial, rfl, rfl, rfl, trivial⟩
  · intro words
    have hwords : arguments words = _ := @arguments_given .query gs
    rw [if_neg (by simp)] at hwords
    have hgiven : Arguments.ofGiven .query gs =
        ⟨.query, .absent, .ofLast (lastValue .file gs), .ofLast (lastValue .image gs), false⟩ := by
      rw [Arguments.ofGiven, lastValue_of_not_mem (by decide), any_isDryRun_of_not_mem (by decide)]
      rfl
    refine ⟨hwords.trans (congrArg _ hgiven), ?_⟩
    simp only [run, hwords, execute, ← pathText_ofGiven, ← selector_ofGiven]
    rfl

/-- A version that looks like an option is overruled by a later one, and an empty image by none. --/
theorem last_values_count_overruled :
    let _ : Host := .ample
    let t : FileTree :=
      { nodes := [(["k.yaml"], .file ("images:\n- newTag: a\n".toList.map fun c => UInt8.ofNat c.toNat) 0o644)] }
    let settings : Settings := ⟨"other.yaml", none, "INFO", .text, "hook", "1", "dev"⟩
    let words := ["pre-commit", "--version=--file=x y", "--dry-run", "--file", "k.yaml", "--version", "2.0", "--image="]
    let report := run none t settings words
    arguments words = .ok ⟨.patch, .text "2.0", .text "k.yaml", .text "", true⟩ ∧ report.ending = .returned 0 ∧
      report.output = "Updated k.yaml: a -> 2.0 (dry run)\n" ∧ report.tree = t := by
  intro host t settings words report
  let gs : List (Given .patch) :=
    [.joined .version "--file=x y" (by decide) rfl (by decide), .dryRun (by decide),
      .apart .file "k.yaml" (by decide) rfl (by decide), .apart .version "2.0" (by decide) rfl (by decide),
      .joined .image "" (by decide) rfl (by decide)]
  have hwords : "pre-commit" :: gs.flatMap Given.words = words := by decide
  obtain ⟨hargs, hrun⟩ := ((last_values_count none t settings).1 gs).1 "2.0" (by decide)
  rw [hwords] at hargs hrun
  have hpatch : (patch none t ⟨.str "2.0", lastPath settings gs, lastImage settings gs, true⟩).result =
      .ok ⟨"k.yaml", some "a", true⟩ := by decide +kernel
  have htree : (patch none t ⟨.str "2.0", lastPath settings gs, lastImage settings gs, true⟩).tree = t := by
    decide +kernel
  have hreport : report = _ := hrun
  rw [hreport]
  refine ⟨hargs, ending_ofOutcome_eq_zero_iff.mpr ⟨_, hpatch, rfl⟩, ?_, (tree_ofOutcome _ _).trans htree⟩
  exact (output_ofOutcome_eq_iff (by decide)).mpr ⟨_, hpatch, rfl, by decide +kernel⟩

end

end Retag.CommandLine

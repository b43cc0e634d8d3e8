import Mathlib.Data.List.Basic
import Retag.Session.Step

/-! The settings of a session. From one dropping of the settings to the next, all steps that ask for them and get them
    get the same: those of the environment in which they were acceptable first. Whoever asks before that is told what
    is wrong, and changes nothing. -/

namespace Retag

namespace Settings

/-- The settings of the first environment in which they are acceptable. --/
def firstOf (envs : List Environment) : Option Settings :=
  envs.findSome? fun env => (read [] env).toOption

theorem firstOf_append (before after : List Environment) :
    firstOf (before ++ after) = (firstOf before).or (firstOf after) :=
  List.findSome?_append

end Settings

namespace Session
open CommandLine Files

variable {s : Session} {v : Settings} {ps : Settings.Problems} {st : Step}

/-- Whether a step asks for the settings of the session. A hook does not if it is given no version; no operation does
    that is given settings of its own. --/
def Step.asks : Step → Bool
  | .askSettings => true
  | .operate .session _ (.preCommit properties) => (Hook.version properties).isOk
  | .operate .session _ _ => true
  | .launch .. => true
  | _ => false

def keeping (s : Session) (kept : Option Settings) : Session :=
  { s with kept }

def within (s : Session) (environment : Settings.Environment) : Session :=
  { s with environment }

/-! ### Asking -/

theorem settings_of_kept (h : s.kept = some v) : s.settings = (.ok v, s) := by
  simp only [settings, h]

theorem settings_of_ok (h : s.settings.1 = .ok v) : s.settings = (.ok v, s.keeping (some v)) := by
  unfold settings at h ⊢
  split at h
  · rename_i w hkept
    cases h
    rw [keeping, ← hkept]
  · split at h
    · cases h
      rfl
    · cases h

theorem settings_of_error (h : s.settings.1 = .error ps) :
    s.settings = (.error ps, s) ∧ s.kept = none ∧ Settings.read [] s.environment = .error ps := by
  unfold settings at h ⊢
  split at h
  · cases h
  · rename_i hkept
    split at h
    · cases h
    · rename_i hread
      cases h
      exact ⟨rfl, hkept, hread⟩

/-! ### One step -/

variable [Host]

theorem step_operate {fault : Option Fault} {operation : Operation}
    (ha : (Step.operate .session fault operation).asks = true) (s : Session) :
    s.step (.operate .session fault operation) = match s.settings with
      | (.ok settings, s) => s.operate settings fault operation
      | (.error ps, s) => { result := .error (.settings ps), session := s } := by
  cases operation with
  | patch _ => rfl
  | query _ _ => rfl
  | run _ => rfl
  | preCommit properties =>
    cases hversion : Hook.version properties with
    | error e => simp [Step.asks, hversion, Except.isOk, Except.toBool] at ha
    | ok version =>
      -- The version that lets the hook ask for the settings is asked for again under them.
      simp only [step, preCommit, hversion]
      rcases s.settings with ⟨_ | _, s'⟩
      · rfl
      · simp only [operate, Hook.preCommit, hversion]

omit [Host] in
/-- The steps that ask for the settings. --/
theorem asks_cases {motive : (st : Step) → st.asks = true → Prop} (settings : motive .askSettings rfl)
    (operate : ∀ fault operation ha, motive (.operate .session fault operation) ha)
    (launch : ∀ fault stream words, motive (.launch fault stream words) rfl) (st : Step) (ha : st.asks = true) :
    motive st ha := by
  cases st with
  | setVariables _ => cases ha
  | setTree _ => cases ha
  | dropSettings => cases ha
  | askSettings => exact settings
  | launch fault stream words => exact launch fault stream words
  | operate source fault operation =>
    cases source with
    | keywords _ => cases ha
    | session => exact operate fault operation ha

theorem step_of_settings_error (ha : st.asks = true) (h : s.settings = (.error ps, s)) :
    s.step st = { result := .error (.settings ps), session := s } := by
  cases st, ha using asks_cases with
  | settings => simp only [step, h]
  | operate _ _ ha => simp only [step_operate ha, h]
  | launch _ _ _ => simp only [step, launch, h]

/-- A step that asks for the settings and gets them does what it does in a session that has kept them. --/
theorem step_of_settings_ok (ha : st.asks = true) (h : s.settings = (.ok v, s.keeping (some v))) :
    s.step st = (s.keeping (some v)).step st := by
  have hkept : (s.keeping (some v)).settings = (.ok v, s.keeping (some v)) := rfl
  cases st, ha using asks_cases with
  | settings => simp only [step, h, hkept]
  | operate _ _ ha => simp only [step_operate ha, h, hkept]
  | launch _ _ _ => simp only [step, launch, h, hkept]

theorem kept_operate (s : Session) (v : Settings) (fault : Option Fault) (operation : Operation) :
    (s.operate v fault operation).session.kept = s.kept := by
  cases operation <;> rfl

theorem kept_reported (s : Session) (stream : Nat) (r : Report) : (s.reported stream r).session.kept = s.kept := by
  rw [reported]
  split <;> rfl

theorem kept_launch (h : s.kept = some v) (fault : Option Fault) (stream : Nat) (words : List String) :
    (s.launch fault stream words).session.kept = some v := by
  simp only [launch, settings_of_kept h]
  split
  · exact h
  · rw [kept_reported]
    exact h

theorem kept_step_of_asks (ha : st.asks = true) (h : s.kept = some v) : (s.step st).session.kept = some v := by
  have hsettings := settings_of_kept h
  cases st, ha using asks_cases with
  | settings => simp only [step, hsettings, h]
  | operate _ _ ha => simp only [step_operate ha, hsettings, kept_operate, h]
  | launch fault stream words =>
    simp only [step]
    split <;> exact kept_launch h fault stream words

theorem operate_within (s : Session) (env : Settings.Environment) (v : Settings) (fault : Option Fault)
    (operation : Operation) : (s.within env).operate v fault operation =
      { s.operate v fault operation with session := (s.operate v fault operation).session.within env } := by
  cases operation <;> rfl

theorem reported_within (s : Session) (env : Settings.Environment) (stream : Nat) (r : Report) :
    (s.within env).reported stream r =
      { s.reported stream r with session := (s.reported stream r).session.within env } := by
  have hjournal : (s.within env).journal = s.journal := rfl
  rw [reported, reported, hjournal]
  split <;> rfl

theorem launch_within (h : s.kept = some v) (env : Settings.Environment) (fault : Option Fault) (stream : Nat)
    (words : List String) : (s.within env).launch fault stream words =
      { s.launch fault stream words with session := (s.launch fault stream words).session.within env } := by
  have hjournal : (s.within env).journal = s.journal := rfl
  simp only [launch, settings_of_kept h, settings_of_kept (s := s.within env) h, hjournal]
  rcases (Journal.setUp v stream).run.run s.journal with ⟨_ | _, j⟩
  · rfl
  · exact reported_within { s with journal := j } env stream _

theorem result_step_within (ha : st.asks = true) (h : s.kept = some v) (env : Settings.Environment) :
    ((s.within env).step st).result = (s.step st).result := by
  have hsettings := settings_of_kept h
  have hwithin : (s.within env).settings = (.ok v, s.within env) := settings_of_kept h
  cases st, ha using asks_cases with
  | settings => simp only [step, hsettings, hwithin]
  | operate _ _ ha => simp only [step_operate ha, hsettings, hwithin, operate_within]
  | launch fault stream words =>
    simp only [step, launch_within h]
    split <;> rfl

omit [Host] in
theorem foldl_setVariable_keeping (changes : List (String × Option String)) (s : Session) (kept : Option Settings) :
    changes.foldl (fun s e => s.setVariable e.1 e.2) (s.keeping kept) =
      (changes.foldl (fun s e => s.setVariable e.1 e.2) s).keeping kept := by
  induction changes generalizing s with
  | nil => rfl
  | cons e rest ih => exact ih (s.setVariable e.1 e.2)

theorem step_of_unversioned {properties : Hook.Properties} {e : BadVersion} {fault : Option Fault}
    (h : Hook.version properties = .error e) (s : Session) :
    s.step (.operate .session fault (.preCommit properties)) =
      { result := .error (.failure (.refused (.version e))), session := s } := by
  simp only [step, preCommit, h]
  rfl

theorem operate_keeping (s : Session) (kept : Option Settings) (v : Settings) (fault : Option Fault)
    (operation : Operation) : (s.keeping kept).operate v fault operation =
      { s.operate v fault operation with session := (s.operate v fault operation).session.keeping kept } := by
  cases operation <;> rfl

/-- A step that neither asks for the settings of the session nor drops them does not depend on what is kept, and
    leaves it as it is. --/
theorem step_keeping (ha : st.asks = false) (hd : st ≠ .dropSettings) (s : Session) (kept : Option Settings) :
    (s.keeping kept).step st = { s.step st with session := (s.step st).session.keeping kept } := by
  cases st with
  | setVariables changes => simp only [step, foldl_setVariable_keeping]
  | setTree _ => rfl
  | dropSettings => exact absurd rfl hd
  | askSettings => cases ha
  | launch _ _ _ => cases ha
  | operate source fault operation =>
    cases source with
    | keywords given =>
      have hread : (s.keeping kept).settingsOf (.keywords given) =
        ((s.settingsOf (.keywords given)).1, s.keeping kept) := rfl
      have hsame : s.settingsOf (.keywords given) = ((s.settingsOf (.keywords given)).1, s) := rfl
      simp only [step, hread]
      rw [hsame]
      cases (s.settingsOf (.keywords given)).1 with
      | error ps => rfl
      | ok v => exact operate_keeping s kept v fault operation
    | session =>
      cases operation with
      | patch _ => cases ha
      | query _ _ => cases ha
      | run _ => cases ha
      | preCommit properties =>
        cases hversion : Hook.version properties with
        | ok _ => simp [Step.asks, hversion, Except.isOk, Except.toBool] at ha
        | error e => simp only [step_of_unversioned hversion]

theorem kept_step_keywords (s : Session) (given : Settings.Keywords) (fault : Option Fault) (operation : Operation) :
    (s.step (.operate (.keywords given) fault operation)).session.kept = s.kept :=
  congrArg (kept ∘ Done.session) (@step_keeping (.operate (.keywords given) fault operation) _ rfl (by simp) s s.kept)

/-! ### Rows of steps -/

/-- The environments in which the steps of a row ask for the settings of the session. --/
def asked (s : Session) : List Step → List Settings.Environment
  | [] => []
  | st :: rest => (if st.asks then [s.environment] else []) ++ (s.step st).session.asked rest

theorem asked_append (earlier later : List Step) (s : Session) :
    s.asked (earlier ++ later) = s.asked earlier ++ (s.after earlier).asked later := by
  induction earlier generalizing s with
  | nil => rfl
  | cons st rest ih => simp only [List.cons_append, asked, ih, List.append_assoc, after, List.foldl_cons]

omit [Host] in
theorem settings_fst (s : Session) : s.settings.1 = match s.kept with
    | some v => .ok v
    | none => Settings.read [] s.environment := by
  unfold settings
  cases s.kept with
  | some v => rfl
  | none => cases Settings.read [] s.environment <;> rfl

/-- One step: what was kept stays, and if nothing was kept and the step asks for settings that are acceptable, these
    are kept from then on. --/
theorem kept_step (hd : st ≠ .dropSettings) (s : Session) :
    (s.step st).session.kept = s.kept.or (Settings.firstOf (if st.asks then [s.environment] else [])) := by
  cases ha : st.asks with
  | false =>
    -- A step that does not ask goes from a session that keeps what it keeps to one that keeps the same.
    have hstep := step_keeping ha hd s s.kept
    have hsame : s.keeping s.kept = s := rfl
    rw [hsame] at hstep
    rw [hstep]
    simp [Settings.firstOf, keeping]
  | true =>
    cases hsettings : s.settings.1 with
    | ok v =>
      rw [step_of_settings_ok ha (settings_of_ok hsettings), kept_step_of_asks ha rfl]
      -- The settings are those that were kept, or else those of the environment, which are the first then.
      rw [settings_fst] at hsettings
      cases hkept : s.kept with
      | some w => simpa [hkept] using hsettings.symm
      | none =>
        rw [hkept] at hsettings
        simp [Settings.firstOf, hsettings, Except.toOption]
    | error ps =>
      obtain ⟨hs, hkept, hread⟩ := settings_of_error hsettings
      rw [step_of_settings_error ha hs, hkept]
      simp [Settings.firstOf, hread, Except.toOption]

/-- A row of steps: what was kept stays, or else the first settings that are acceptable where a step asks for them are
    kept. --/
theorem kept_after {steps : List Step} (hd : .dropSettings ∉ steps) (s : Session) :
    (s.after steps).kept = s.kept.or (Settings.firstOf (s.asked steps)) := by
  induction steps generalizing s with
  | nil => simp [after, asked, Settings.firstOf]
  | cons st rest ih =>
    obtain ⟨hst, hrest⟩ := List.ne_and_not_mem_of_not_mem_cons hd
    rw [asked, Settings.firstOf_append, ← Option.or_assoc, ← kept_step (Ne.symm hst), ← ih hrest]
    rfl

section

variable {earlier later : List Step}

theorem firstOf_asked_of_ok (hd : .dropSettings ∉ earlier) (hnone : s.kept = none) (ha : st.asks = true)
    (h : (s.after earlier).settings.1 = .ok v) : Settings.firstOf (s.asked (earlier ++ st :: later)) = some v := by
  have hst : st ≠ .dropSettings := by
    rintro rfl
    cases ha
  have hstep : ((s.after earlier).step st).session.kept = some v := by
    rw [step_of_settings_ok ha (settings_of_ok h), kept_step_of_asks ha rfl]
  have hkept := kept_after hd s
  rw [hnone, Option.none_or] at hkept
  -- What is kept behind the step settles the row, whatever comes later.
  rw [asked_append, Settings.firstOf_append, ← hkept, asked, Settings.firstOf_append, ← Option.or_assoc,
    ← kept_step hst, hstep, Option.some_or]

theorem firstOf_asked_of_error (hd : .dropSettings ∉ earlier) (hnone : s.kept = none)
    (h : (s.after earlier).settings.1 = .error ps) : Settings.firstOf (s.asked earlier) = none := by
  have hkept := kept_after hd s
  rw [hnone, Option.none_or] at hkept
  exact hkept.symm.trans (settings_of_error h).2.1

end

/-- From one dropping of the settings to the next, the settings are fixed. All steps that ask for them and get them
    get the first that are acceptable where a step asks for them, and keep them; they do their work under these, and
    would do the same in any other environment. Whoever asks before that is refused, with what is wrong with the
    settings of the environment at that moment, and leaves everything as it was. Neither a hook that is given no
    version nor an operation with settings of its own depends on what is kept, or changes it. --/
theorem settings_fixed (s : Session) {steps : List Step} (hd : .dropSettings ∉ steps) :
    let start := s.dropSettings
    (∀ earlier st later, steps = earlier ++ st :: later → st.asks = true →
      let u := start.after earlier
      (∀ v, u.settings.1 = .ok v → Settings.firstOf (start.asked steps) = some v ∧
        (u.step st).session.kept = some v ∧
        (st = .askSettings → (u.step st).result = .ok (.settings v)) ∧
        (∀ fault operation, st = .operate .session fault operation →
          u.step st = (u.keeping (some v)).operate v fault operation) ∧
        ∀ env, (((u.keeping (some v)).within env).step st).result = (u.step st).result) ∧
      ∀ ps, u.settings.1 = .error ps → Settings.firstOf (start.asked earlier) = none ∧
        Settings.read [] u.environment = .error ps ∧
        u.step st = { result := .error (.settings ps), session := u }) ∧
    (∀ (u : Session) fault properties e kept, Hook.version properties = .error e →
      (u.keeping kept).step (.operate .session fault (.preCommit properties)) =
        { result := .error (.failure (.refused (.version e))), session := u.keeping kept }) ∧
    ∀ (u : Session) given fault operation kept,
      let d := u.step (.operate (.keywords given) fault operation)
      d.session.kept = u.kept ∧ (u.keeping kept).step (.operate (.keywords given) fault operation) =
        { d with session := d.session.keeping kept } := by
  intro start
  refine ⟨fun earlier st later hsteps ha => ?_, fun u fault properties e kept hversion => ?_,
    fun u given fault operation kept => ?_⟩
  · intro u
    subst hsteps
    have hearlier : .dropSettings ∉ earlier := fun hmem => hd (List.mem_append_left _ hmem)
    refine ⟨fun v hv => ?_, fun ps hps => ?_⟩
    · have hstep := step_of_settings_ok ha (settings_of_ok hv)
      refine ⟨firstOf_asked_of_ok hearlier rfl ha hv, ?_, ?_, ?_, fun env => ?_⟩
      · rw [hstep, kept_step_of_asks ha rfl]
      · rintro rfl
        rw [hstep]
        rfl
      · rintro fault operation rfl
        rw [step_operate ha, settings_of_ok hv]
      · rw [hstep, result_step_within ha rfl env]
    · obtain ⟨hsettings, -, hread⟩ := settings_of_error hps
      exact ⟨firstOf_asked_of_error hearlier rfl hps, hread, step_of_settings_error ha hsettings⟩
  · exact step_of_unversioned hversion (u.keeping kept)
  · exact ⟨kept_step_keywords u given fault operation, step_keeping rfl (by simp) u kept⟩

omit [Host] in
/-- A format that is not allowed is refused and not kept; of the two that are allowed the first stays, also for a
    program that is launched after the variable has changed. --/
theorem settings_fixed_format :
    let _ : Host := .ample
    let start := ({ tree := {} } : Session).dropSettings
    let format (word : String) : Step := .setVariables [("RELEASE_HOOK_LOG_FORMAT", some word)]
    let earlier : List Step := [format "xml", .askSettings, format "ecs", .askSettings, format "text",
      .operate .session none (.preCommit [])]
    let last : Step := .launch none 0 ["show"]
    let v : Settings := ⟨"./config/manager/kustomization.yaml", none, "INFO", .ecs, "release-hook", "1.0.0", "local"⟩
    .dropSettings ∉ earlier ++ [last] ∧ (start.after earlier).settings.1 = .ok v ∧
      Settings.firstOf (start.asked (earlier ++ [last])) = some v ∧
      ((start.after earlier).step last).session.kept = some v := by
  intro host start format earlier last v
  have hd : .dropSettings ∉ earlier ++ [last] := by simp [earlier, format, last]
  have hv : (start.after earlier).settings.1 = .ok v := by decide +kernel
  have ha : last.asks = true := rfl
  -- The row is forgotten, or it would be run once more to compare the two sides.
  clear_value v earlier last
  obtain ⟨hfirst, hkept, -⟩ := ((settings_fixed { tree := {} } hd).1 earlier last [] rfl ha).1 v hv
  exact ⟨hd, hv, hfirst, hkept⟩

end Session
end Retag

import Mathlib.Data.List.Induction
import Retag.Journal.Setup
import Retag.Proofs.Results

/-! The journal after setups. A setup fails for its word alone, and then changes nothing; after any row of setups the
    level and the one handler are those of the last that succeeded, and the services that were stacked show as the
    last of them, where the stack has room for them all. -/

namespace Retag.Journal

/-- A setup: its settings, and the stream that is the current one. --/
structure Call where
  settings : Settings
  stream : Nat
  deriving DecidableEq

namespace Constant

/-- Whether a constant is a level, or a text that names one. --/
def isLevel : Constant → Bool
  | .level _ => true
  | .text s => (levelNames.lookup s).isSome
  | .table => false

theorem asLevel_isOk (k : Constant) : k.asLevel.isOk = k.isLevel := by
  cases k with
  | level l => rfl
  | text s => cases h : levelNames.lookup s <;> simp [asLevel, isLevel, h, Except.isOk, Except.toBool]
  | table => rfl

end Constant

namespace Call

/-- Whether the word of a setup stands for something that is no level. --/
def isRefused (c : Call) : Bool :=
  (constants.lookup (upperWord c.settings.logLevel)).any fun k => !k.isLevel

def handler (c : Call) : Handler :=
  ⟨c.settings.logFormat, c.stream⟩

def service (c : Call) : Service :=
  serviceOf c.settings

/-- Whether a setup gives records a service. --/
def names (c : Call) : Bool :=
  !c.isRefused && c.settings.logFormat == .ecs

theorem levelOf_isOk (c : Call) : (levelOf c.settings.logLevel).isOk = !c.isRefused := by
  rw [levelOf, Constant.asLevel_isOk, isRefused]
  cases constants.lookup (upperWord c.settings.logLevel) <;> simp [Constant.isLevel]

theorem levelOf_eq_ok {c : Call} (h : c.isRefused = false) : ∃ level, levelOf c.settings.logLevel = .ok level := by
  rw [← isOk_iff, levelOf_isOk, h, Bool.not_false]

theorem levelOf_eq_error {c : Call} (h : c.isRefused = true) : ∃ why, levelOf c.settings.logLevel = .error why := by
  have hno := c.levelOf_isOk
  rw [h, Bool.not_true] at hno
  cases hlevel : levelOf c.settings.logLevel with
  | error why => exact ⟨why, rfl⟩
  | ok level =>
    rw [hlevel] at hno
    cases hno

end Call

/-! ### Stacked services -/

namespace Factory

/-- The factory for services that were stacked, the first one innermost. --/
def stacked (services : List Service) : Factory :=
  services.foldl .naming .plain

theorem stacked_append (services : List Service) (s : Service) :
    stacked (services ++ [s]) = .naming (stacked services) s := by
  rw [stacked, stacked, List.foldl_append, List.foldl_cons, List.foldl_nil]

/-- A record names the service that was stacked last. --/
theorem make_stacked (services : List Service) (r : Record) :
    (stacked services).make r = ⟨r, services.getLast?⟩ := by
  induction services using List.reverseRecOn with
  | nil => rfl
  | append_singleton services s ih => rw [stacked_append, make, ih, List.getLast?_concat]

theorem depth_stacked (services : List Service) : (stacked services).depth = services.length := by
  induction services using List.reverseRecOn with
  | nil => rfl
  | append_singleton services s ih => rw [stacked_append, depth, ih, List.length_append, List.length_singleton]

end Factory

/-! ### One setup -/

/-- What a setup makes of a state: its result, and the state after it. --/
def State.set (j : State) (c : Call) : Except Breakdown Unit × State :=
  (setUp c.settings c.stream).run.run j

theorem set_eq (j : State) (c : Call) : j.set c = match levelOf c.settings.logLevel with
    | .error why => (.error why, j)
    | .ok level => (.ok (), {
        level
        handlers := [c.handler]
        factory := if c.settings.logFormat = .ecs then .naming j.factory c.service else j.factory }) := by
  rw [State.set, setUp]
  cases levelOf c.settings.logLevel with
  | error why => rfl
  | ok level =>
    by_cases hformat : c.settings.logFormat = .ecs
    · simp only [if_pos hformat]
      rfl
    · simp only [if_neg hformat]
      rfl

/-- A setup fails exactly if its word stands for something that is no level. --/
theorem set_fails_iff (j : State) (c : Call) : (∃ why, (j.set c).1 = .error why) ↔ c.isRefused = true := by
  rw [set_eq]
  cases hrefused : c.isRefused with
  | true =>
    obtain ⟨why, hwhy⟩ := Call.levelOf_eq_error hrefused
    simp [hwhy]
  | false =>
    obtain ⟨level, hlevel⟩ := Call.levelOf_eq_ok hrefused
    simp [hlevel]

/-- A setup that fails changes nothing. --/
theorem set_of_refused {c : Call} (h : c.isRefused = true) (j : State) : (j.set c).2 = j := by
  obtain ⟨why, hwhy⟩ := Call.levelOf_eq_error h
  rw [set_eq, hwhy]

/-! ### Rows of setups -/

/-- The state after a row of setups. --/
def State.after (j : State) (calls : List Call) : State :=
  calls.foldl (fun j c => (j.set c).2) j

/-- The last setup of a row that succeeds. --/
def lastOf (calls : List Call) : Option Call :=
  (calls.filter fun c => !c.isRefused).getLast?

/-- The services that a row of setups gives, in turn. --/
def servicesOf (calls : List Call) : List Service :=
  (calls.filter Call.names).map Call.service

/-- What a row of setups leaves behind: the last one that succeeded gave the level and the one handler, and all that
    give records a service are stacked. --/
structure Follows (calls : List Call) (j : State) : Prop where
  none : lastOf calls = none → j.level = .warning ∧ j.handlers = []
  some : ∀ c, lastOf calls = some c → levelOf c.settings.logLevel = .ok j.level ∧ j.handlers = [c.handler]
  factory : j.factory = .stacked (servicesOf calls)

theorem lastOf_append_of_refused {c : Call} (h : c.isRefused = true) (calls : List Call) :
    lastOf (calls ++ [c]) = lastOf calls := by
  simp [lastOf, List.filter_append, h]

theorem lastOf_append {c : Call} (h : c.isRefused = false) (calls : List Call) : lastOf (calls ++ [c]) = some c := by
  simp [lastOf, List.filter_append, h]

theorem servicesOf_append (calls : List Call) (c : Call) :
    servicesOf (calls ++ [c]) = servicesOf calls ++ if c.names then [c.service] else [] := by
  cases h : c.names <;> simp [servicesOf, List.filter_append, h]

variable {calls : List Call} {j : State} {c : Call}

theorem Follows.set (hj : Follows calls j) (c : Call) : Follows (calls ++ [c]) (j.set c).2 := by
  cases hrefused : c.isRefused with
  | true =>
    have hnames : c.names = false := by simp [Call.names, hrefused]
    rw [set_of_refused hrefused]
    refine ⟨?_, ?_, ?_⟩
    · rw [lastOf_append_of_refused hrefused]
      exact hj.none
    · rw [lastOf_append_of_refused hrefused]
      exact hj.some
    · rw [servicesOf_append, hnames, if_neg Bool.false_ne_true, List.append_nil]
      exact hj.factory
  | false =>
    obtain ⟨level, hlevel⟩ := Call.levelOf_eq_ok hrefused
    rw [set_eq, hlevel]
    refine ⟨fun h => ?_, fun c' h => ?_, ?_⟩
    · simp [lastOf_append hrefused] at h
    · rw [lastOf_append hrefused] at h
      cases h
      exact ⟨hlevel, rfl⟩
    · -- One more service is stacked in the structured format, and none otherwise.
      by_cases hformat : c.settings.logFormat = .ecs
      · have hnames : c.names = true := by simp [Call.names, hrefused, hformat]
        rw [servicesOf_append, if_pos hnames, Factory.stacked_append, ← hj.factory]
        exact if_pos hformat
      · have hnames : ¬c.names = true := by simp [Call.names, hformat]
        rw [servicesOf_append, if_neg hnames, List.append_nil, ← hj.factory]
        exact if_neg hformat

theorem follows_after (calls : List Call) : Follows calls (State.after {} calls) := by
  induction calls using List.reverseRecOn with
  | nil => exact ⟨fun _ => ⟨rfl, rfl⟩, nofun, rfl⟩
  | append_singleton calls c ih =>
    rw [State.after, List.foldl_append]
    exact ih.set c

/-! ### Lines -/

theorem linesOn_singleton {h : Handler} (hj : j.handlers = [h]) (stream : Nat) (r : Record) :
    linesOn j stream [r] = if keeps j r.level && h.stream == stream then [h.line (j.factory.make r)] else [] := by
  cases hkeeps : keeps j r.level <;> by_cases hstream : h.stream = stream <;>
    simp [linesOn, linesFor, hkeeps, hj, hstream]

/-- A record that clashes with nothing is in trouble exactly if it is kept and the stack has no room for its making. --/
theorem trouble?_of_clashless [Host] {r : Record} (h : clashes j r = false) :
    trouble? j r = if keeps j r.level = true ∧ Host.makes r j.factory.depth = false then some .stackFull else none := by
  unfold trouble?
  cases keeps j r.level <;> cases Host.makes r j.factory.depth <;> simp [h]

/-- Whether a setup in a row fails is decided by its word: it fails exactly if this stands for something that is no
    level, and then nothing changes. After the row the level and the one handler, with its format and stream, are those
    of the last setup that succeeded, and a message of any level makes a line on this stream exactly if the level is
    above zero and not below that of the journal. Every record names the service of the last setup in the structured
    format that succeeded, whatever came after it, and none if there was none. But the setups in the structured format
    stay stacked: where the stack has no room to make a record through all of them, this breaks the program down. --/
theorem setups_last_wins [Host] (calls : List Call) :
    let j := State.after {} calls
    let stacked := (calls.filter Call.names).length
    (∀ earlier c later, calls = earlier ++ c :: later →
      let i := State.after {} earlier
      ((∃ why, (i.set c).1 = .error why) ↔
        ∃ k, constants.lookup (upperWord c.settings.logLevel) = some k ∧ k.isLevel = false) ∧
      ((∃ why, (i.set c).1 = .error why) → (i.set c).2 = i)) ∧
    (∀ c, lastOf calls = some c →
      levelOf c.settings.logLevel = .ok j.level ∧ j.handlers = [⟨c.settings.logFormat, c.stream⟩] ∧
      ∀ channel (n : Int) message,
        let r : Record := { channel, level := n, message }
        (trouble? j r =
          if (0 < n ∧ j.level ≤ n) ∧ Host.makes r stacked = false then some .stackFull else none) ∧
        (trouble? j r = none → (linesOn j c.stream [r] ≠ [] ↔ 0 < n ∧ j.level ≤ n))) ∧
    ∀ r, Host.makes r stacked = true →
      j.factory.make r = ⟨r, ((calls.filter Call.names).getLast?).map Call.service⟩ := by
  intro j stacked
  have hj : Follows calls j := follows_after calls
  have hdepth : j.factory.depth = stacked := by
    rw [hj.factory, Factory.depth_stacked, servicesOf, List.length_map]
  refine ⟨fun earlier c later _ => ?_, fun c hc => ?_, fun r _ => ?_⟩
  · intro i
    refine ⟨?_, fun h => set_of_refused ((set_fails_iff i c).mp h) i⟩
    rw [set_fails_iff, Call.isRefused]
    cases constants.lookup (upperWord c.settings.logLevel) <;> simp
  · obtain ⟨hlevel, hhandlers⟩ := hj.some c hc
    refine ⟨hlevel, hhandlers, fun channel n message => ?_⟩
    intro r
    refine ⟨?_, fun _ => ?_⟩
    · rw [trouble?_of_clashless (by simp [clashes, r]), hdepth]
      simp [keeps, r]
    · rw [linesOn_singleton hhandlers]
      simp [keeps, Call.handler, r]
  · rw [hj.factory, Factory.make_stacked, servicesOf, List.getLast?_map]

/-- A service stays through a setup that fails and one in the text format, while the level is that of the latter. --/
theorem setups_last_wins_text_after_structured :
    let _ : Host := .ample
    let settings (word : String) (format : LogFormat) : Settings :=
      ⟨"k.yaml", none, word, format, "hook", "1", "dev"⟩
    let calls : List Call :=
      [⟨settings "debug" .ecs, 0⟩, ⟨settings "_styles" .ecs, 1⟩, ⟨settings "warn" .text, 2⟩]
    let j := State.after {} calls
    let r : Record := { channel := "c", level := 30, message := "m" }
    j.level = 30 ∧ j.handlers = [⟨.text, 2⟩] ∧ (j.factory.make r).service = some ⟨"hook", "1", "dev"⟩ ∧
      linesOn j 2 [r] ≠ [] := by
  intro host settings calls j r
  have hlast : lastOf calls = some ⟨settings "warn" .text, 2⟩ := by decide +kernel
  have hservice : ((calls.filter Call.names).getLast?).map Call.service = some ⟨"hook", "1", "dev"⟩ := by
    decide +kernel
  have hwarn : levelOf "warn" = .ok 30 := by decide +kernel
  obtain ⟨-, hcurrent, hmake⟩ := setups_last_wins calls
  obtain ⟨hlevel, hhandlers, hlines⟩ := hcurrent _ hlast
  have hthirty : j.level = 30 := Except.ok.inj (hlevel.symm.trans hwarn)
  obtain ⟨htrouble, hline⟩ := hlines "c" 30 "m"
  have hfree : trouble? j r = none := htrouble.trans (if_neg fun h => nomatch h.2)
  exact ⟨hthirty, hhandlers, by rw [hmake r rfl, hservice], (hline hfree).mpr ⟨by decide, Int.le_of_eq hthirty⟩⟩

/-- Where the stack has room for 985 factories, 986 setups in the structured format are too many. --/
example :
    let _ : Host := { Host.ample with makes := fun _ depth => depth ≤ 985 }
    let j := State.after {} (List.replicate 986 ⟨⟨"k.yaml", none, "INFO", .ecs, "hook", "1", "dev"⟩, 0⟩)
    trouble? j { channel := "c", level := 20, message := "m" } = some .stackFull := by
  decide +kernel

end Retag.Journal

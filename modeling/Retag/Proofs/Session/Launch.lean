import Mathlib.Data.List.TakeWhile
import Retag.Proofs.CommandLine.Exit
import Retag.Proofs.Journal.Setup
import Retag.Proofs.Session
import Retag.Proofs.Settings

/-! Runs of the program beside their journal. The settings of the journal say what lines there are and in which format,
    and nothing else, as long as the stack has room for making the records: rows of runs that differ in them only end
    alike, print the same, and leave the same files behind. No record of a run clashes with the fields of records; but
    each run in the structured format stacks one more factory, and where these are too many, a record breaks the run
    down. -/

namespace Retag

namespace Settings

/-- Whether a field is about the journal alone. --/
def Field.isOfJournal : Field → Bool
  | .manifestPath | .imageName => false
  | .logLevel | .logFormat | .serviceName | .serviceVersion | .environment => true

/-- Whether a variable is for a field that is about the journal alone, in whatever case it is written. --/
def isOfJournal (name : String) : Bool :=
  fields.any fun f => f.isOfJournal && lowerName name == f.variableName

/-- An environment without the variables that are about the journal alone. --/
def withoutJournal (env : Environment) : Environment :=
  env.filter fun e => !isOfJournal e.1

variable {env env' : Environment} {v v' : Settings} {f g : Field}

theorem isOfJournal_of_lowerName {name : String} (h : lowerName name = f.variableName) :
    isOfJournal name = f.isOfJournal := by
  rw [Bool.eq_iff_iff, isOfJournal, List.any_eq_true, h]
  constructor
  · rintro ⟨g, -, hg⟩
    rw [Bool.and_eq_true, beq_iff_eq, variableName_inj] at hg
    rw [hg.2, hg.1]
  · intro hf
    exact ⟨f, mem_fields f, by rw [hf, beq_self_eq_true, Bool.and_self]⟩

theorem valueIn?_withoutJournal (hf : f.isOfJournal = false) (env : Environment) :
    valueIn? (withoutJournal env) f.variableName = valueIn? env f.variableName := by
  rw [valueIn?, withoutJournal, ← List.filter_reverse, List.find?_filter, valueIn?]
  congr 2
  funext e
  by_cases hname : lowerName e.1 = f.variableName
  · simp [hname, isOfJournal_of_lowerName hname, hf]
  · simp [hname]

theorem chosen_eq_of_withoutJournal (h : withoutJournal env' = withoutJournal env) (hf : f.isOfJournal = false) :
    chosen [] env' f = chosen [] env f := by
  have hvalue : valueIn? env' f.variableName = valueIn? env f.variableName := by
    rw [← valueIn?_withoutJournal hf, h, valueIn?_withoutJournal hf]
  rw [chosen, chosen, hvalue]

theorem read_eq_ok (h : read [] env = .ok v) :
    textOf (chosen [] env .manifestPath) = .ok v.manifestPath ∧
      imageNameOf (chosen [] env .imageName) = .ok v.imageName := by
  obtain ⟨path, hpath, hv⟩ := bind_eq_ok.mp (read_eq_ok_iff.mp h)
  obtain ⟨name, hname, hv⟩ := bind_eq_ok.mp hv
  obtain ⟨_, -, hv⟩ := bind_eq_ok.mp hv
  obtain ⟨_, -, hv⟩ := bind_eq_ok.mp hv
  obtain ⟨_, -, hv⟩ := bind_eq_ok.mp hv
  obtain ⟨_, -, hv⟩ := bind_eq_ok.mp hv
  obtain ⟨_, -, hv⟩ := bind_eq_ok.mp hv
  cases hv
  exact ⟨hpath, hname⟩

/-- Environments that differ in variables of the journal only name the same image of the same manifest. --/
theorem addressed_eq_of_withoutJournal (henv : withoutJournal env' = withoutJournal env) (hv : read [] env = .ok v)
    (hv' : read [] env' = .ok v') : v'.manifestPath = v.manifestPath ∧ v'.imageName = v.imageName := by
  obtain ⟨hpath, hname⟩ := read_eq_ok hv
  obtain ⟨hpath', hname'⟩ := read_eq_ok hv'
  rw [chosen_eq_of_withoutJournal henv rfl] at hpath' hname'
  exact ⟨Except.ok.inj (hpath'.symm.trans hpath), Except.ok.inj (hname'.symm.trans hname)⟩

end Settings

/-! ### Records of a run -/

namespace Manifest
open Files Journal

variable [Host] {fault : Option Fault} {t : FileTree} {request : Request} {record : Record}

/-- A record of a request: the tag is as wanted, or changes, or the manifest was written. --/
inductive OfRequest : Record → Prop where
  | current (path : Path) (tag : Tag) : OfRequest (currentRecord path tag)
  | change (message : String) (path : Path) (previous : Option Text.Wobbly) (tag : Tag) :
      OfRequest (changeRecord message path previous tag)
  | written (path : Path) (l : Location) : OfRequest (written path l)

omit [Host] in
theorem mem_records_andThen {α β : Type} {o : Outcome α} {f : α → FileTree → Outcome β}
    (h : record ∈ (o.andThen f).records) : record ∈ o.records ∨ ∃ a, record ∈ (f a o.tree).records := by
  unfold Outcome.andThen at h
  split at h
  · exact Or.inl h
  · exact (List.mem_append.mp h).imp_right fun h => ⟨_, h⟩

omit [Host] in
theorem mem_records_thenRecord {α : Type} {o : Outcome α} {f : α → Record} (h : record ∈ (o.thenRecord f).records) :
    record ∈ o.records ∨ ∃ a, record = f a := by
  unfold Outcome.thenRecord at h
  split at h
  · exact Or.inl h
  · exact (List.mem_append.mp h).imp_right fun h => ⟨_, List.mem_singleton.mp h⟩

theorem ofRequest_of_saveAndRecord {path : Path} {d : Document}
    (h : record ∈ (saveAndRecord fault t path d).records) : OfRequest record := by
  rcases mem_records_thenRecord h with h | ⟨l, rfl⟩
  · rw [records_save] at h
    cases h
  · exact .written path l

theorem ofRequest_of_patch (h : record ∈ (patch fault t request).records) : OfRequest record := by
  unfold patch at h
  cases htag : Tag.ofValue request.version with
  | error e => simp [htag] at h
  | ok tag =>
    simp only [htag] at h
    cases hfind : find fault t (.ofText request.path) request.selector with
    | error e => simp [hfind] at h
    | ok found =>
      simp only [hfind, apply] at h
      split at h
      · rw [List.mem_singleton.mp h]
        exact .current _ tag
      · split at h
        · rw [List.mem_singleton.mp h]
          exact .change _ _ _ tag
        · rcases mem_records_andThen h with h | ⟨_, h⟩
          · exact ofRequest_of_saveAndRecord h
          · rw [List.mem_singleton.mp h]
            exact .change _ _ _ tag

omit [Host] in
/-- A record of a request clashes with no field that records use for themselves, nor with the service. --/
theorem OfRequest.clashes_eq (h : OfRequest record) (j : State) : clashes j record = false := by
  cases h with
  | current path tag => simp [clashes, currentRecord, ownFields]
  | change message path previous tag => simp [clashes, changeRecord, ownFields]
  | written path l => simp [clashes, Manifest.written, ownFields]

end Manifest

namespace CommandLine
open Files Journal Manifest

variable [Host] {fault : Option Fault} {t : FileTree} {v v' : Settings} {words : List String}

/-- What a run prints as output: the text that its command line asks for, or a line for what its command gave if the
    output takes it. --/
def resultText (fault : Option Fault) (t : FileTree) (v : Settings) (words : List String) : Text.Wobbly :=
  match arguments words with
  | .error stop => stop.output
  | .ok a => match (outcome fault t v a).result with
    | .ok given => if Host.takes (line v a given) then line v a given ++ ("\n" : Text.Wobbly) else ""
    | .error _ => ""

theorem output_run (fault : Option Fault) (t : FileTree) (v : Settings) (words : List String) :
    (run fault t v words).output = resultText fault t v words := by
  unfold run resultText
  cases arguments words with
  | error stop => rfl
  | ok a =>
    simp only [execute_eq, Report.ofOutcome]
    rcases (outcome fault t v a).result with (_ | _) | given
    · rfl
    · rfl
    · dsimp only
      split <;> rfl

theorem records_ofOutcome {α : Type} (line : α → Text.Wobbly) (o : Outcome α) :
    (Report.ofOutcome line o).records = o.records := by
  unfold Report.ofOutcome
  split
  · split <;> rfl
  · rfl
  · rfl

theorem ofRequest_of_run {record : Record} (h : record ∈ (run fault t v words).records) : OfRequest record := by
  unfold run at h
  cases hargs : arguments words with
  | error stop =>
    rw [hargs] at h
    cases h
  | ok a =>
    simp only [hargs, execute] at h
    split at h
    · rw [records_ofOutcome] at h
      exact ofRequest_of_patch h
    · rw [records_ofOutcome] at h
      cases h

/-- Of the settings a run reads the manifest's path and the image's name. --/
theorem run_congr (hpath : v'.manifestPath = v.manifestPath) (hname : v'.imageName = v.imageName)
    (fault : Option Fault) (t : FileTree) (words : List String) : run fault t v' words = run fault t v words := by
  have htext : pathText v' = pathText v := funext fun a => by rw [pathText, pathText, hpath]
  have hselector : selector v' = selector v := funext fun a => by rw [selector, selector, hname]
  have hrequest : request v' = request v := funext fun a => by rw [request, request, htext, hselector]
  have hline : patchedLine v' = patchedLine v := by
    funext a p
    rw [patchedLine, patchedLine, htext]
  unfold run execute
  rw [htext, hselector, hrequest, hline]

end CommandLine

namespace Session
open CommandLine Files Journal Manifest

variable [Host]

/-- A call of the program: what fails in it, the stream of its errors, and its command line. --/
structure Launch where
  fault : Option Fault
  stream : Nat
  words : List String

/-- What is seen of a run beside its journal: how it ends, its output and its error, and the files. --/
def Run.seen (r : Run) : Ending × Text.Wobbly × String × FileTree :=
  (r.ending, r.output, r.error, r.session.tree)

def Launch.run (c : Launch) (s : Session) : Run :=
  s.launch c.fault c.stream c.words

def Launch.report (c : Launch) (s : Session) (v : Settings) : Report :=
  CommandLine.run c.fault s.tree v c.words

def afterAll (s : Session) (calls : List Launch) : Session :=
  calls.foldl (fun s c => (c.run s).session) s

/-- The journal as a call sets it up. --/
def Launch.journal (c : Launch) (s : Session) (v : Settings) : State :=
  (s.journal.set ⟨v, c.stream⟩).2

/-- The stack has no room for making one of the records that are kept of a call. --/
def Launch.Overflows (c : Launch) (s : Session) (v : Settings) : Prop :=
  ∃ record ∈ (c.report s v).records, keeps (c.journal s v) record.level = true ∧
    Host.makes record (c.journal s v).factory.depth = false

/-- A call keeps its journal to itself: it leaves the files as its command line does, and whatever line is made of one of
    its records goes to the stream of its errors. It also ends as its command line does, with the output that this has
    as its result, unless the stack has no room for a record: then it breaks down and its output is empty. --/
structure Apart (v : Settings) (s : Session) (c : Launch) : Prop where
  tree : (c.run s).session.tree = (c.report s v).tree
  ending : ¬c.Overflows s v → (c.run s).ending = (c.report s v).ending
  output : ¬c.Overflows s v → (c.run s).output = resultText c.fault s.tree v c.words
  overflow : c.Overflows s v → (c.run s).ending = .broken .stackFull ∧ (c.run s).output = ""
  lines : ∀ record ∈ (c.report s v).records, ∀ e ∈ linesFor (c.run s).session.journal record, e.2 = some c.stream

variable {s s' : Session} {v v' : Settings} {c : Launch}

/-! ### One run -/

theorem session_reported (s : Session) (stream : Nat) (r : Report) :
    (s.reported stream r).session = { s with tree := r.tree } := by
  unfold reported
  split <;> rfl

theorem reported_of_sound {r : Report} (h : r.records.findSome? (trouble? s.journal) = none) (stream : Nat) :
    s.reported stream r =
      { ending := r.ending, output := r.output, lines := linesOn s.journal stream r.records, error := r.error,
        session := { s with tree := r.tree } } := by
  have hall : r.records.takeWhile (fun record => (trouble? s.journal record).isNone) = r.records :=
    List.takeWhile_eq_self_iff.mpr fun record hr => by rw [List.findSome?_eq_none_iff.mp h record hr, Option.isNone_none]
  simp only [reported, h, hall]

theorem reported_of_trouble {r : Report} {why : Breakdown} (h : r.records.findSome? (trouble? s.journal) = some why)
    (stream : Nat) : (s.reported stream r).ending = .broken why ∧ (s.reported stream r).output = "" := by
  simp only [reported, h, and_self]

theorem findSome?_trouble?_report (c : Launch) (s : Session) (v : Settings) :
    (c.Overflows s v → (c.report s v).records.findSome? (trouble? (c.journal s v)) = some .stackFull) ∧
      (¬c.Overflows s v → (c.report s v).records.findSome? (trouble? (c.journal s v)) = none) := by
  have htrouble : ∀ record ∈ (c.report s v).records, trouble? (c.journal s v) record = _ := fun record hr =>
    trouble?_of_clashless ((ofRequest_of_run hr).clashes_eq (c.journal s v))
  constructor
  · rintro ⟨record, hr, hfull⟩
    have hsome := htrouble record hr
    rw [if_pos hfull] at hsome
    cases hfound : (c.report s v).records.findSome? (trouble? (c.journal s v)) with
    | none => cases (List.findSome?_eq_none_iff.mp hfound record hr).symm.trans hsome
    | some why =>
      -- Whichever record is in trouble first, it is for the same reason.
      obtain ⟨first, hfirst, hwhy⟩ := List.exists_of_findSome?_eq_some hfound
      rw [htrouble first hfirst, Option.ite_none_right_eq_some] at hwhy
      exact hwhy.2.symm
  · intro hno
    rw [List.findSome?_eq_none_iff]
    intro record hr
    rw [htrouble record hr, if_neg fun hfull => hno ⟨record, hr, hfull⟩]

theorem run_eq (hv : s.settings.1 = .ok v) (hlevel : (levelOf v.logLevel).isOk) :
    c.run s = reported { s with kept := some v, journal := c.journal s v } c.stream (c.report s v) := by
  obtain ⟨level, hl⟩ := isOk_iff.mp hlevel
  have hset := set_eq s.journal ⟨v, c.stream⟩
  simp only [hl] at hset
  have hup : (setUp v c.stream).run.run s.journal = (.ok (), c.journal s v) := by
    rw [Launch.journal, hset]
    exact hset
  rw [Launch.run, launch, settings_of_ok hv]
  simp only [keeping, hup]
  rfl

theorem session_run (hv : s.settings.1 = .ok v) (hlevel : (levelOf v.logLevel).isOk) (c : Launch) :
    (c.run s).session = { s with tree := (c.report s v).tree, kept := some v, journal := c.journal s v } := by
  rw [run_eq hv hlevel, session_reported]

theorem run_of_not_overflows (hv : s.settings.1 = .ok v) (hlevel : (levelOf v.logLevel).isOk)
    (h : ¬c.Overflows s v) : c.run s =
      let r := c.report s v
      { ending := r.ending, output := r.output, lines := linesOn (c.journal s v) c.stream r.records, error := r.error,
        session := { s with tree := r.tree, kept := some v, journal := c.journal s v } } := by
  have hsound := (findSome?_trouble?_report c s v).2 h
  rw [run_eq hv hlevel]
  exact reported_of_sound (s := { s with kept := some v, journal := c.journal s v }) hsound c.stream

theorem seen_run (hv : s.settings.1 = .ok v) (hlevel : (levelOf v.logLevel).isOk) (h : ¬c.Overflows s v) :
    (c.run s).seen =
      ((c.report s v).ending, (c.report s v).output, (c.report s v).error, (c.report s v).tree) := by
  rw [run_of_not_overflows hv hlevel h, Run.seen]

omit [Host] in
theorem journal_eq (hlevel : (levelOf v.logLevel).isOk) (c : Launch) (s : Session) :
    (c.journal s v).handlers = [⟨v.logFormat, c.stream⟩] ∧
      (c.journal s v).factory.depth = s.journal.factory.depth + if v.logFormat = .ecs then 1 else 0 := by
  obtain ⟨level, hl⟩ := isOk_iff.mp hlevel
  rw [Launch.journal, set_eq, hl]
  refine ⟨rfl, ?_⟩
  by_cases hformat : v.logFormat = .ecs
  · simp only [if_pos hformat, Factory.depth]
  · simp only [if_neg hformat, Nat.add_zero]

omit [Host] in
theorem stream_of_mem_linesFor {j : State} {h : Handler} (hj : j.handlers = [h]) {record : Record}
    {e : Line × Option Nat} (he : e ∈ linesFor j record) : e.2 = some h.stream := by
  unfold linesFor at he
  split at he
  · cases he
  · simp only [hj, List.map_cons, List.map_nil, List.mem_singleton] at he
    rw [he]

theorem apart_of_ok (hv : s.settings.1 = .ok v) (hlevel : (levelOf v.logLevel).isOk) (c : Launch) : Apart v s c := by
  refine ⟨?_, fun hroom => ?_, fun hroom => ?_, fun hfull => ?_, fun record _ e he => ?_⟩
  · rw [session_run hv hlevel]
  · rw [run_of_not_overflows hv hlevel hroom]
  · rw [run_of_not_overflows hv hlevel hroom]
    exact output_run c.fault s.tree v c.words
  · have htrouble := (findSome?_trouble?_report c s v).1 hfull
    rw [run_eq hv hlevel]
    exact reported_of_trouble (s := { s with kept := some v, journal := c.journal s v }) htrouble c.stream
  · rw [session_run hv hlevel] at he
    exact stream_of_mem_linesFor (journal_eq hlevel c s).1 he

/-! ### Rows of runs -/

/-- Two sessions have the same files, and settings that a journal can be set up for and that are about the same image of
    the same manifest. --/
structure Twins (v v' : Settings) (s s' : Session) : Prop where
  tree : s'.tree = s.tree
  first : s.settings.1 = .ok v
  second : s'.settings.1 = .ok v'
  firstLevel : (levelOf v.logLevel).isOk
  secondLevel : (levelOf v'.logLevel).isOk
  path : v'.manifestPath = v.manifestPath
  name : v'.imageName = v.imageName

theorem Twins.report (h : Twins v v' s s') (c : Launch) : c.report s' v' = c.report s v := by
  rw [Launch.report, Launch.report, h.tree, run_congr h.path h.name]

theorem Twins.seen (h : Twins v v' s s') (hroom : ¬c.Overflows s v) (hroom' : ¬c.Overflows s' v') :
    (c.run s').seen = (c.run s).seen := by
  rw [seen_run h.second h.secondLevel hroom', seen_run h.first h.firstLevel hroom, h.report]

/-- What one call keeps: the journals go apart, and nothing else does. --/
theorem Twins.run (h : Twins v v' s s') (c : Launch) : Twins v v' (c.run s).session (c.run s').session := by
  rw [session_run h.first h.firstLevel, session_run h.second h.secondLevel, h.report]
  exact ⟨rfl, rfl, rfl, h.firstLevel, h.secondLevel, h.path, h.name⟩

theorem Twins.afterAll (h : Twins v v' s s') (calls : List Launch) :
    Twins v v' (s.afterAll calls) (s'.afterAll calls) := by
  induction calls generalizing s s' with
  | nil => exact h
  | cons c rest ih => exact ih (h.run c)

theorem settings_run (hv : s.settings.1 = .ok v) (hlevel : (levelOf v.logLevel).isOk) (c : Launch) :
    (c.run s).session.settings.1 = .ok v := by
  rw [session_run hv hlevel]
  rfl

/-- Each call in the structured format stacks one more factory. --/
theorem depth_afterAll (hv : s.settings.1 = .ok v) (hlevel : (levelOf v.logLevel).isOk) (calls : List Launch) :
    (s.afterAll calls).journal.factory.depth =
      s.journal.factory.depth + if v.logFormat = .ecs then calls.length else 0 := by
  induction calls generalizing s with
  | nil => simp [afterAll]
  | cons c rest ih =>
    have hone : (c.run s).session.journal.factory.depth = _ :=
      (congrArg (fun u => u.journal.factory.depth) (session_run hv hlevel c)).trans (journal_eq hlevel c s).2
    rw [afterAll, List.foldl_cons, ← afterAll, ih (settings_run hv hlevel c), hone, List.length_cons]
    split
    · omega
    · rfl

/-- Two sessions with the same files and with environments that differ in variables of the journal alone run the program
    alike, whatever their journals were set up for before. If both environments give settings, and a journal can be set
    up for each, then after any row of calls one more call leaves the same files behind in both, and it ends alike and
    prints the same output and the same error beside the lines of the journal, if the stack has room for its records in
    both. In both, no line of the journal gets into an output: this is the result of the command line alone, and all
    lines go to the stream of errors. But each call in the structured format leaves one more factory for records to be
    made through, and where the stack has no room for a record, the call breaks down, when its work on the files is
    done. --/
theorem runs_beside_journal (earlier : List Launch) (c : Launch) (htree : s'.tree = s.tree) (hkept : s.kept = none)
    (hkept' : s'.kept = none)
    (henv : Settings.withoutJournal s'.environment = Settings.withoutJournal s.environment)
    (hv : Settings.read [] s.environment = .ok v) (hv' : Settings.read [] s'.environment = .ok v')
    (hlevel : (levelOf v.logLevel).isOk) (hlevel' : (levelOf v'.logLevel).isOk) :
    let u := s.afterAll earlier
    let u' := s'.afterAll earlier
    (c.run u').session.tree = (c.run u).session.tree ∧
      (¬c.Overflows u v → ¬c.Overflows u' v' → (c.run u').seen = (c.run u).seen) ∧ Apart v u c ∧ Apart v' u' c ∧
      (c.journal u v).factory.depth =
        s.journal.factory.depth + if v.logFormat = .ecs then earlier.length + 1 else 0 := by
  intro u u'
  obtain ⟨hpath, hname⟩ := Settings.addressed_eq_of_withoutJournal henv hv hv'
  have hfirst : s.settings.1 = .ok v := by simp only [settings, hkept, hv]
  have hsecond : s'.settings.1 = .ok v' := by simp only [settings, hkept', hv']
  have htwins : Twins v v' u u' :=
    Twins.afterAll ⟨htree, hfirst, hsecond, hlevel, hlevel', hpath, hname⟩ earlier
  refine ⟨(htwins.run c).tree, htwins.seen, apart_of_ok htwins.first hlevel c, apart_of_ok htwins.second hlevel' c, ?_⟩
  rw [(journal_eq hlevel c u).2, depth_afterAll hfirst hlevel]
  split
  · omega
  · rfl

omit [Host] in
/-- A question behind a patch, under a journal that keeps everything, in the structured format, and under one that keeps
    next to nothing, in the text format: what is seen is the same, and the lines are not. --/
theorem runs_beside_journal_loud_and_silent :
    let _ : Host := .ample
    let tree : FileTree :=
      { nodes := [(["k.yaml"], .file ("images:\n- newTag: a\n".toList.map fun c => UInt8.ofNat c.toNat) 0o644)] }
    let env (level format : String) : Settings.Environment := [("RELEASE_HOOK_LOG_LEVEL", level),
      ("RELEASE_HOOK_MANIFEST_PATH", "k.yaml"), ("release_hook_log_format", format)]
    let loud : Session := { tree, environment := env "debug" "ecs" }
    let silent : Session := { tree, environment := env "critical" "text" }
    let again : Launch := ⟨none, 1, ["pre-commit", "--version", "c"]⟩
    let earlier : List Launch := [⟨none, 0, ["pre-commit", "--version", "b"]⟩]
    (again.run (silent.afterAll earlier)).seen = (again.run (loud.afterAll earlier)).seen ∧
      (again.run (silent.afterAll earlier)).lines.length = 0 ∧ (again.run (loud.afterAll earlier)).lines.length = 2 := by
  intro host tree env loud silent again earlier
  have htree : silent.tree = loud.tree := rfl
  have hkept : loud.kept = none := rfl
  have hkept' : silent.kept = none := rfl
  have hv : Settings.read [] loud.environment =
      .ok ⟨"k.yaml", none, "debug", .ecs, "release-hook", "1.0.0", "local"⟩ := by decide +kernel
  have hv' : Settings.read [] silent.environment =
      .ok ⟨"k.yaml", none, "critical", .text, "release-hook", "1.0.0", "local"⟩ := by decide +kernel
  have henv : Settings.withoutJournal silent.environment = Settings.withoutJournal loud.environment := by
    decide +kernel
  have hroom : ∀ (u : Session) w, ¬again.Overflows u w := fun _ _ ⟨_, _, _, hfull⟩ => nomatch hfull
  have halike := runs_beside_journal earlier again htree hkept hkept' henv hv hv' (by decide +kernel) (by decide +kernel)
  exact ⟨halike.2.1 (hroom _ _) (hroom _ _), by decide +kernel, by decide +kernel⟩

end Session
end Retag

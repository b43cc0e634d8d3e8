import Mathlib.Data.List.Nodup
import Retag.Proofs.Results
import Retag.Proofs.Text.Encoding
import Retag.Settings

/-! Settings from keywords and variables. A keyword that is given hides the variable of its field, and the variable
    hides the default, whether or not what it says is acceptable; what is acceptable is a matter of each field alone, so
    the fields that are not are named together. -/

namespace Retag.Settings
open Text

variable {keywords keywords' : Keywords} {env env' : Environment} {f g : Field} {v w : Value} {s : Settings}

/-! ### Fields -/

theorem mem_fields (f : Field) : f ∈ fields := by
  cases f <;> simp [fields]

theorem keyword_inj : f.keyword = g.keyword ↔ f = g := by
  refine ⟨fun h => ?_, fun h => by rw [h]⟩
  cases f <;> cases g <;> simp [Field.keyword] at h ⊢

theorem variableName_inj : f.variableName = g.variableName ↔ f = g := by
  rw [Field.variableName, Field.variableName, String.append_right_inj, keyword_inj]

/-- The value of a field in settings. --/
def value (s : Settings) : Field → Value
  | .manifestPath => .str s.manifestPath
  | .imageName => s.imageName.elim .null .str
  | .logLevel => .str s.logLevel
  | .logFormat => .str s.logFormat.word
  | .serviceName => .str s.serviceName
  | .serviceVersion => .str s.serviceVersion
  | .environment => .str s.environment

/-! ### What is chosen -/

/-- At most one entry is for each field, in whatever case its name is written. --/
def SingleFor {α : Type} (name : Field → String) (entries : List (String × α)) : Prop :=
  ∀ f, ∀ e ∈ entries, ∀ e' ∈ entries, lowerName e.1 = name f → lowerName e'.1 = name f → e = e'

/-- No two keywords are for one field, and no two variables. --/
structure Unambiguous (keywords : Keywords) (env : Environment) : Prop where
  byKeyword : SingleFor Field.keyword keywords
  byVariable : SingleFor Field.variableName env

theorem singleFor_of_nodup {α : Type} {name : Field → String} {entries : List (String × α)}
    (h : (entries.map fun e => lowerName e.1).Nodup) : SingleFor name entries :=
  fun _ _ he _ he' hname hname' => List.inj_on_of_nodup_map h he he' (hname.trans hname'.symm)

/-- Two rows have the same entries for fields, in whatever order and among whatever others. --/
def Kept {α : Type} (name : Field → String) (entries entries' : List (String × α)) : Prop :=
  ∀ e f, lowerName e.1 = name f → (e ∈ entries' ↔ e ∈ entries)

theorem SingleFor.congr {α : Type} {name : Field → String} {entries entries' : List (String × α)}
    (h : SingleFor name entries) (hkept : Kept name entries entries') : SingleFor name entries' :=
  fun f e he e' he' hname hname' =>
    h f e ((hkept e f hname).mp he) e' ((hkept e' f hname').mp he') hname hname'

/-- The value that is chosen for a field: of its keyword, or else of its variable, or else its default. --/
inductive Chooses (keywords : Keywords) (env : Environment) (f : Field) : Value → Prop where
  | keyword {name : String} {v : Value} (h : (name, v) ∈ keywords) (hname : lowerName name = f.keyword) :
      Chooses keywords env f v
  | environment {name s : String} (hnone : ∀ e ∈ keywords, lowerName e.1 ≠ f.keyword) (h : (name, s) ∈ env)
      (hname : lowerName name = f.variableName) : Chooses keywords env f (.str s)
  | default (hnone : ∀ e ∈ keywords, lowerName e.1 ≠ f.keyword) (hno : ∀ e ∈ env, lowerName e.1 ≠ f.variableName) :
      Chooses keywords env f f.default

/-- The only entry for a field is the one that is found, from either end. --/
theorem find?_eq_some_of_single {α : Type} {name : Field → String} {entries : List (String × α)} {e : String × α}
    (hsingle : SingleFor name entries) (he : e ∈ entries) (hname : lowerName e.1 = name f) :
    (entries.find? fun e => lowerName e.1 == name f) = some e := by
  cases hfind : entries.find? fun e => lowerName e.1 == name f with
  | none =>
    have hno := List.find?_eq_none.mp hfind e he
    simp [hname] at hno
  | some e' =>
    have hmem := List.mem_of_find?_eq_some hfind
    have hname' := List.find?_some hfind
    rw [hsingle f e' hmem e he (by simpa using hname') hname]

theorem find?_eq_none_iff {α : Type} {entries : List (String × α)} {key : String} :
    (entries.find? fun e => lowerName e.1 == key) = none ↔ ∀ e ∈ entries, lowerName e.1 ≠ key := by
  simp

theorem Chooses.chosen_eq (h : Unambiguous keywords env) (hv : Chooses keywords env f v) :
    chosen keywords env f = v := by
  cases hv with
  | keyword hmem hname =>
    have hgiven := find?_eq_some_of_single h.byKeyword hmem hname
    simp only [chosen, given?, hgiven, Option.map_some]
  | environment hnone hmem hname =>
    have hsingle : SingleFor Field.variableName env.reverse := by simpa [SingleFor] using h.byVariable
    have hfound := find?_eq_some_of_single hsingle (List.mem_reverse.mpr hmem) hname
    simp only [chosen, given?, find?_eq_none_iff.mpr hnone, valueIn?, hfound, Option.map_none, Option.map_some]
  | default hnone hno =>
    have hnot : (env.reverse.find? fun e => lowerName e.1 == f.variableName) = none :=
      find?_eq_none_iff.mpr fun e he => hno e (List.mem_reverse.mp he)
    simp only [chosen, given?, find?_eq_none_iff.mpr hnone, valueIn?, hnot, Option.map_none]

theorem chooses_chosen (keywords : Keywords) (env : Environment) (f : Field) :
    Chooses keywords env f (chosen keywords env f) := by
  unfold chosen
  cases hgiven : keywords.find? fun e => lowerName e.1 == f.keyword with
  | some e =>
    have hname := List.find?_some hgiven
    simp only [given?, hgiven, Option.map_some]
    exact .keyword (List.mem_of_find?_eq_some hgiven) (by simpa using hname)
  | none =>
    have hnone := find?_eq_none_iff.mp hgiven
    cases hfound : env.reverse.find? fun e => lowerName e.1 == f.variableName with
    | some e =>
      have hname := List.find?_some hfound
      simp only [given?, hgiven, Option.map_none, valueIn?, hfound, Option.map_some]
      exact .environment hnone (List.mem_reverse.mp (List.mem_of_find?_eq_some hfound)) (by simpa using hname)
    | none =>
      have hno := find?_eq_none_iff.mp hfound
      simp only [given?, hgiven, Option.map_none, valueIn?, hfound]
      exact .default hnone fun e he => hno e (List.mem_reverse.mpr he)

theorem chosen_eq_iff (h : Unambiguous keywords env) : chosen keywords env f = v ↔ Chooses keywords env f v := by
  refine ⟨?_, fun hv => hv.chosen_eq h⟩
  rintro rfl
  exact chooses_chosen keywords env f

/-! ### What is acceptable -/

/-- A value that is acceptable to a field, and the value that the settings have for it. --/
inductive Takes (f : Field) : Value → Value → Prop where
  | text {s : String} (hf : f ≠ .logFormat) (hs : f = .imageName → isBlankText s = false) : Takes f (.str s) (.str s)
  | bytes {s : String} (hf : f ≠ .logFormat) : Takes f (.scalar (.bytes (encode s.toList))) (.str s)
  | format {s : String} (hf : f = .logFormat) (hs : s = "text" ∨ s = "ecs") : Takes f (.str s) (.str s)
  | null (hf : f = .imageName) : Takes f .null .null
  | blank {s : String} (hf : f = .imageName) (hs : isBlankText s = true) : Takes f (.str s) .null

theorem textOf_eq_ok {s : String} :
    textOf v = .ok s ↔ v = .str s ∨ v = .scalar (.bytes (encode s.toList)) := by
  unfold textOf
  split
  · simp [Value.str]
  · rename_i bs
    have hread : ∀ cs, (decode .utf8 bs).text? = some cs ↔ bs = encode cs := fun _ => text?_decodeUtf8_eq_some
    cases htext : (decode .utf8 bs).text? with
    | none =>
      have hno : bs ≠ encode s.toList := by
        intro hbs
        rw [(hread _).mpr hbs] at htext
        cases htext
      simp [Value.str, hno]
    | some cs =>
      obtain rfl := (hread _).mp htext
      simp only [Except.ok.injEq, Value.str, Value.scalar.injEq, Scalar.bytes.injEq, reduceCtorEq, false_or]
      constructor
      · rintro rfl
        rw [String.toList_ofList]
      · intro h
        have hsame := (hread s.toList).mpr h
        rw [htext] at hsame
        rw [Option.some.inj hsame, String.ofList_toList]
  · simp [Value.str]
  · rename_i hstr hbytes htorn
    constructor
    · intro h
      cases h
    · rintro (rfl | rfl)
      · exact absurd rfl (hstr _)
      · exact absurd rfl (hbytes _)

theorem formatOf_eq_ok {format : LogFormat} : formatOf v = .ok format ↔ v = .str format.word := by
  unfold formatOf
  split
  · rename_i s
    by_cases htext : s = "text"
    · subst htext
      cases format <;> simp [LogFormat.word, Value.str]
    · by_cases hecs : s = "ecs"
      · subst hecs
        cases format <;> simp [LogFormat.word, Value.str]
      · cases format <;> simp [LogFormat.word, Value.str, htext, hecs]
  · rename_i hstr
    constructor
    · intro h
      cases h
    · rintro rfl
      exact absurd rfl (hstr _)

/-- A field that is read as any text is. --/
def Field.isTextual : Field → Bool
  | .imageName | .logFormat => false
  | _ => true

theorem takes_str_iff (hf : f.isTextual = true) : Takes f v w ↔ ∃ s, textOf v = .ok s ∧ w = .str s := by
  have hname : f ≠ .imageName := by
    rintro rfl
    cases hf
  have hformat : f ≠ .logFormat := by
    rintro rfl
    cases hf
  simp only [textOf_eq_ok]
  constructor
  · intro h
    cases h with
    | text _ _ => exact ⟨_, .inl rfl, rfl⟩
    | bytes _ => exact ⟨_, .inr rfl, rfl⟩
    | format h _ => exact absurd h hformat
    | null h => exact absurd h hname
    | blank h _ => exact absurd h hname
  · rintro ⟨s, rfl | rfl, rfl⟩
    · exact .text hformat fun h => absurd h hname
    · exact .bytes hformat

theorem takes_format_iff : Takes .logFormat v w ↔ ∃ format, formatOf v = .ok format ∧ w = .str format.word := by
  simp only [formatOf_eq_ok]
  constructor
  · intro h
    cases h with
    | text h _ => exact absurd rfl h
    | bytes h => exact absurd rfl h
    | format _ hs =>
      rcases hs with rfl | rfl
      · exact ⟨.text, rfl, rfl⟩
      · exact ⟨.ecs, rfl, rfl⟩
    | null h => cases h
    | blank h _ => cases h
  · rintro ⟨format, rfl, rfl⟩
    cases format with
    | text => exact .format rfl (.inl rfl)
    | ecs => exact .format rfl (.inr rfl)

theorem takes_imageName_iff :
    Takes .imageName v w ↔ ∃ name, imageNameOf v = .ok name ∧ w = name.elim .null .str := by
  constructor
  · intro h
    cases h with
    | @text s _ hs => exact ⟨some s, by simp only [imageNameOf, Value.str, hs rfl, Bool.false_eq_true, ↓reduceIte], rfl⟩
    | @bytes s _ =>
      refine ⟨some s, ?_, rfl⟩
      rw [imageNameOf, textOf_eq_ok.mpr (.inr rfl), map_ok]
      · simp
      · simp
    | format h _ => cases h
    | null _ => exact ⟨none, rfl, rfl⟩
    | blank _ hs => exact ⟨none, by simp only [imageNameOf, Value.str, hs, ↓reduceIte], rfl⟩
  · rintro ⟨name, hname, rfl⟩
    unfold imageNameOf at hname
    split at hname
    · cases hname
      exact .null rfl
    · rename_i s
      cases hs : isBlankText s
      · simp only [hs, Bool.false_eq_true, ↓reduceIte, Except.ok.injEq] at hname
        subst hname
        exact .text (by decide) fun _ => hs
      · simp only [hs, ↓reduceIte, Except.ok.injEq] at hname
        subst hname
        exact .blank rfl hs
    · rename_i hstr
      obtain ⟨s, hs, rfl⟩ := map_eq_ok.mp hname
      rcases textOf_eq_ok.mp hs with rfl | rfl
      · exact absurd rfl (hstr s)
      · exact .bytes (by decide)

theorem takes_text {s : String} (hf : f.isTextual = true) : Takes f v (.str s) ↔ textOf v = .ok s := by
  rw [takes_str_iff hf]
  simp [Value.str]

theorem takes_name {name : Option String} :
    Takes .imageName v (name.elim .null .str) ↔ imageNameOf v = .ok name := by
  rw [takes_imageName_iff]
  refine ⟨fun ⟨name', hname', heq⟩ => ?_, fun h => ⟨name, h, rfl⟩⟩
  cases name <;> cases name' <;> simp_all [Value.str, Value.null]

theorem takes_word {format : LogFormat} : Takes .logFormat v (.str format.word) ↔ formatOf v = .ok format := by
  rw [formatOf_eq_ok, takes_format_iff]
  simp only [formatOf_eq_ok]
  exact ⟨fun ⟨format', hformat', heq⟩ => hformat'.trans heq.symm, fun h => ⟨format, h, rfl⟩⟩

theorem problem?_eq_none_iff : problem? f v = none ↔ ∃ w, Takes f v w := by
  cases hf : f.isTextual
  case true =>
    have hproblem : problem? f v = match textOf v with
        | .ok _ => none
        | .error p => some p := by
      cases f with
      | imageName => cases hf
      | logFormat => cases hf
      | _ =>
        simp only [problem?]
        cases textOf v <;> rfl
    simp only [hproblem, takes_str_iff hf]
    cases textOf v <;> simp
  case false =>
    cases f with
    | imageName =>
      simp only [problem?, takes_imageName_iff]
      cases imageNameOf v <;> simp
    | logFormat =>
      simp only [problem?, takes_format_iff]
      cases formatOf v <;> simp
    | _ => cases hf

/-! ### What is read -/

variable {choose : Field → Value}

theorem ofChosen?_eq_ok_iff : ofChosen? choose = .ok s ↔ ∀ f, Takes f (choose f) (s.value f) := by
  simp only [ofChosen?, bind_eq_ok, pure_eq_ok, Except.ok.injEq]
  constructor
  · rintro ⟨path, hpath, name, hname, level, hlevel, format, hformat, service, hservice, version, hversion, place,
      hplace, rfl⟩ f
    cases f with
    | manifestPath => exact (takes_text rfl).mpr hpath
    | imageName => exact takes_name.mpr hname
    | logLevel => exact (takes_text rfl).mpr hlevel
    | logFormat => exact takes_word.mpr hformat
    | serviceName => exact (takes_text rfl).mpr hservice
    | serviceVersion => exact (takes_text rfl).mpr hversion
    | environment => exact (takes_text rfl).mpr hplace
  · intro h
    exact ⟨_, (takes_text rfl).mp (h .manifestPath), _, takes_name.mp (h .imageName), _,
      (takes_text rfl).mp (h .logLevel), _, takes_word.mp (h .logFormat), _, (takes_text rfl).mp (h .serviceName), _,
      (takes_text rfl).mp (h .serviceVersion), _, (takes_text rfl).mp (h .environment), rfl⟩

theorem exists_ofChosen? (h : ∀ f, ∃ w, Takes f (choose f) w) : ∃ s, ofChosen? choose = .ok s := by
  have htext : ∀ f, f.isTextual = true → ∃ s, textOf (choose f) = .ok s := by
    intro f hf
    obtain ⟨w, hw⟩ := h f
    obtain ⟨s, hs, -⟩ := (takes_str_iff hf).mp hw
    exact ⟨s, hs⟩
  obtain ⟨path, hpath⟩ := htext .manifestPath rfl
  obtain ⟨_, hw⟩ := h .imageName
  obtain ⟨name, hname, -⟩ := takes_imageName_iff.mp hw
  obtain ⟨level, hlevel⟩ := htext .logLevel rfl
  obtain ⟨_, hw⟩ := h .logFormat
  obtain ⟨format, hformat, -⟩ := takes_format_iff.mp hw
  obtain ⟨service, hservice⟩ := htext .serviceName rfl
  obtain ⟨version, hversion⟩ := htext .serviceVersion rfl
  obtain ⟨place, hplace⟩ := htext .environment rfl
  exact ⟨⟨path, name, level, format, service, version, place⟩, by
    simp only [ofChosen?, hpath, hname, hlevel, hformat, hservice, hversion, hplace, ok_bind, pure_eq_ok]⟩

theorem read_eq_ok_iff : read keywords env = .ok s ↔ ofChosen? (chosen keywords env) = .ok s := by
  simp only [read]
  cases ofChosen? (chosen keywords env) <;> simp

theorem read_eq_error {ps : Problems} (h : read keywords env = .error ps) : ps = problems (chosen keywords env) := by
  simp only [read] at h
  split at h
  · cases h
  · exact (Except.error.inj h).symm

theorem map_fst_problems (choose : Field → Value) :
    (problems choose).map Prod.fst = fields.filter fun f => (problem? f (choose f)).isSome := by
  unfold problems
  generalize fields = fs
  induction fs with
  | nil => rfl
  | cons f fs ih =>
    rw [List.filterMap_cons, List.filter_cons]
    cases problem? f (choose f) with
    | none => exact ih
    | some p => exact congrArg (f :: ·) ih

theorem mem_problems_iff : f ∈ (problems choose).map Prod.fst ↔ ¬∃ w, Takes f (choose f) w := by
  rw [map_fst_problems, List.mem_filter, ← problem?_eq_none_iff, Option.isSome_iff_ne_none]
  exact and_iff_right (mem_fields f)

theorem nodup_problems (choose : Field → Value) : ((problems choose).map Prod.fst).Nodup := by
  rw [map_fst_problems]
  exact List.Pairwise.filter _ (by decide)

theorem Chooses.congr (hkeywords : Kept Field.keyword keywords keywords') (henv : Kept Field.variableName env env')
    (h : Chooses keywords env f v) : Chooses keywords' env' f v := by
  have hnone (hno : ∀ e ∈ keywords, lowerName e.1 ≠ f.keyword) : ∀ e ∈ keywords', lowerName e.1 ≠ f.keyword :=
    fun e he hname => hno e ((hkeywords e f hname).mp he) hname
  cases h with
  | @keyword name v hmem hname => exact .keyword ((hkeywords (name, v) f hname).mpr hmem) hname
  | @environment name s hno hmem hname => exact .environment (hnone hno) ((henv (name, s) f hname).mpr hmem) hname
  | default hno hnot =>
    exact .default (hnone hno) fun e he hname => hnot e ((henv e f hname).mp he) hname

theorem read_congr (h : Unambiguous keywords env) (hkeywords : Kept Field.keyword keywords keywords')
    (henv : Kept Field.variableName env env') : read keywords' env' = read keywords env := by
  have hchosen : chosen keywords' env' = chosen keywords env := by
    funext f
    have hchooses := (chooses_chosen keywords env f).congr hkeywords henv
    exact hchooses.chosen_eq ⟨h.byKeyword.congr hkeywords, h.byVariable.congr henv⟩
  simp only [read, hchosen]

/-- Settings are read field by field. If no two keywords and no two variables are for one field, exactly one value is
    chosen for each; settings are given exactly if every field takes the value that is chosen for it, and have what it
    takes this as; and what is named otherwise are the fields that do not take theirs, each once. Neither entries for no
    field nor the order of the others have any influence. --/
theorem read_field_by_field (h : Unambiguous keywords env) :
    (∀ f, ∃! v, Chooses keywords env f v) ∧
      ((∃ s, read keywords env = .ok s) ↔ ∀ f v, Chooses keywords env f v → ∃ w, Takes f v w) ∧
      (∀ s, read keywords env = .ok s ↔ ∀ f v, Chooses keywords env f v → Takes f v (s.value f)) ∧
      (∀ ps, read keywords env = .error ps → (ps.map Prod.fst).Nodup ∧
        ∀ f, f ∈ ps.map Prod.fst ↔ ∃ v, Chooses keywords env f v ∧ ¬∃ w, Takes f v w) ∧
      ∀ keywords' env', Kept Field.keyword keywords keywords' → Kept Field.variableName env env' →
        read keywords' env' = read keywords env := by
  have hforall {P : Field → Value → Prop} :
      (∀ f v, Chooses keywords env f v → P f v) ↔ ∀ f, P f (chosen keywords env f) := by
    simp only [← chosen_eq_iff h, forall_eq']
  have hexists {f : Field} {P : Value → Prop} :
      (∃ v, Chooses keywords env f v ∧ P v) ↔ P (chosen keywords env f) := by
    simp only [← chosen_eq_iff h, exists_eq_left']
  refine ⟨fun f => ?_, ?_, fun s => ?_, fun ps hps => ?_, fun _ _ => read_congr h⟩
  · exact ⟨chosen keywords env f, chooses_chosen keywords env f, fun v hv => (hv.chosen_eq h).symm⟩
  · rw [hforall]
    constructor
    · rintro ⟨s, hs⟩ f
      exact ⟨_, ofChosen?_eq_ok_iff.mp (read_eq_ok_iff.mp hs) f⟩
    · intro htakes
      obtain ⟨s, hs⟩ := exists_ofChosen? htakes
      exact ⟨s, read_eq_ok_iff.mpr hs⟩
  · rw [hforall, read_eq_ok_iff, ofChosen?_eq_ok_iff]
  · obtain rfl := read_eq_error hps
    refine ⟨nodup_problems _, fun f => ?_⟩
    rw [mem_problems_iff, hexists]

/-- A keyword in any case hides a variable that its field would take, a blank name is none, and the two fields that do
    not take what is chosen for them are named together. --/
theorem read_field_by_field_hidden :
    let keywords : Keywords := [("Log_Level", .null), ("image_name", .str " "), ("other", .null)]
    let env : Environment := [("RELEASE_HOOK_LOG_LEVEL", "INFO"), ("Release_Hook_Log_Format", "json"), ("PATH", "")]
    Unambiguous keywords env ∧ read keywords env = .error [(.logLevel, .notText), (.logFormat, .notAllowed)] ∧
      (∃ v, Chooses keywords env .logLevel v ∧ ¬∃ w, Takes .logLevel v w) ∧
      (∃ v, Chooses keywords env .logFormat v ∧ ¬∃ w, Takes .logFormat v w) ∧
      ¬∃ v, Chooses keywords env .imageName v ∧ ¬∃ w, Takes .imageName v w := by
  intro keywords env
  have h : Unambiguous keywords env :=
    ⟨singleFor_of_nodup (by decide +kernel), singleFor_of_nodup (by decide +kernel)⟩
  have hread : read keywords env = .error [(.logLevel, .notText), (.logFormat, .notAllowed)] := by decide +kernel
  obtain ⟨-, hnamed⟩ := (read_field_by_field h).2.2.2.1 _ hread
  exact ⟨h, hread, (hnamed .logLevel).mp (by simp), (hnamed .logFormat).mp (by simp),
    fun hno => absurd ((hnamed .imageName).mpr hno) (by simp)⟩

/-- A keyword that is the name of no field as it is written has the field that it names in lower case. --/
theorem read_keyword_in_capitals :
    (∀ f : Field, f.keyword ≠ "IMAGE_NAME") ∧
      (read [("IMAGE_NAME", .str "img")] []).map imageName = .ok (some "img") ∧
      (read [] []).map imageName = .ok none := by
  refine ⟨fun f => ?_, by decide +kernel, by decide +kernel⟩
  cases f <;> decide

end Retag.Settings

import Retag.Manifest.Patch
import Retag.Proofs.Document.Shown
import Retag.Proofs.Files.Walk
import Retag.Proofs.Manifest.Store

/-! Loading manifests and finding tags in them. A load that fails is refused, unless the reading of the content breaks
    down at one of its escapes or values, or for want of room on the stack; and a path that was loaded can be resolved, so
    saving to it is refused at most. -/

namespace Retag.Manifest
open Files Text

variable {fault : Option Fault} {t : FileTree} {path : Path} {bytes : List UInt8} {d : Document} {e : Failure}
  {why : Breakdown} {selector : Option String}

/-! ### The content -/

theorem isFile_eq_ok_true (h : t.isFile path = .ok true) :
    path.hasNull = false ∧ ∃ l content mode, t.find path = .ok l ∧ t.get? l = some (.file content mode) := by
  unfold FileTree.isFile at h
  split at h
  · cases h
  · rename_i hnull
    refine ⟨by simpa using hnull, ?_⟩
    split at h
    · rename_i l hl
      split at h
      · rename_i content mode hx
        exact ⟨l, content, mode, hl, hx⟩
      · cases h
    · split at h <;> cases h

/-- A content that was read is that of the file which the path leads to. --/
theorem contentOf_eq_ok (h : contentOf fault t path = .ok bytes) :
    path.hasNull = false ∧ ∃ l mode, t.find path = .ok l ∧ t.get? l = some (.file bytes mode) := by
  unfold contentOf at h
  split at h
  · cases h
  · cases h
  · rename_i hfile
    obtain ⟨hnull, l, content, mode, hl, hx⟩ := isFile_eq_ok_true (attempt_eq_ok hfile).1
    refine ⟨hnull, l, mode, hl, ?_⟩
    cases ha : attempt fault .openFile (t.content path) with
    | error fe => simp [ha] at h
    | ok content' =>
      have hc := (attempt_eq_ok ha).1
      simp only [FileTree.content, hl, ok_bind, hx, pure_eq_ok] at hc
      cases hc
      rw [ha] at h
      cases h
      exact hx

/-- A content that cannot be read is refused. --/
theorem contentOf_eq_error (h : contentOf fault t path = .error e) : ∃ refusal, e = .refused refusal := by
  unfold contentOf at h
  split at h
  · cases h
    exact ⟨_, rfl⟩
  · cases h
    exact ⟨_, rfl⟩
  · cases ha : attempt fault .openFile (t.content path) with
    | error fe =>
      rw [ha] at h
      cases h
      exact ⟨_, rfl⟩
    | ok content => simp [ha] at h

/-! ### Loading -/

/-- Without an encoding that needs a byte order mark, none is missing. --/
theorem ending_ofBytes_utf8 (bytes : List UInt8) : (Source.ofBytes .utf8 bytes).ending ≠ .unmarked := by
  have hmarked : ∀ (cs : List Char), (Source.ofChars cs).ending ≠ .unmarked := fun cs => by
    unfold Source.ofChars
    simp only
    split <;> simp
  have hstart : start .utf8 bytes = .plain .utf8 0 bytes := rfl
  simp only [Source.ofBytes, hstart, Source.ofMarked]
  split
  · exact hmarked _
  · split
    · simp
    · exact hmarked _

variable [Host]

/-- A decoding that fails is refused, unless the reading breaks down. --/
theorem decode_eq_error (path : String) (bytes : List UInt8) (e : Failure) (h : decode path .standard bytes = .error e) :
    (∃ why, e = .refused (.malformed path why)) ∨
      ∃ why, e = .broken why ∧ Markup.read (Source.ofBytes .utf8 bytes) = .error (.broken why) := by
  unfold decode Charset.standard at h
  simp only at h
  cases hr : Markup.read (Source.ofBytes .utf8 bytes) with
  | ok d? => cases d? <;> simp [hr] at h
  | error f =>
    simp only [hr, Except.error.injEq] at h
    subst h
    cases f with
    | broken why => exact Or.inr ⟨why, rfl, rfl⟩
    | malformed => exact Or.inl ⟨_, rfl⟩
    | unfinished =>
      cases hend : (Source.ofBytes .utf8 bytes).ending with
      | unmarked => exact absurd hend (ending_ofBytes_utf8 bytes)
      | _ => exact Or.inl ⟨_, rfl⟩

/-- The reading of a manifest breaks down: its content was read, and holds an escape or a value that is impossible, or the
    stack has no room for it. --/
def ReadingBreaks (fault : Option Fault) (t : FileTree) (path : Path) (why : Breakdown) : Prop :=
  ∃ bytes, contentOf fault t path = .ok bytes ∧ Markup.read (Source.ofBytes .utf8 bytes) = .error (.broken why)

/-- Loading breaks down exactly if the reading does. --/
theorem load_eq_broken_iff : load fault t path = .error (.broken why) ↔ ReadingBreaks fault t path why := by
  unfold load
  constructor
  · intro h
    rcases bind_eq_error.mp h with hc | ⟨bytes, hc, hd⟩
    · obtain ⟨refusal, hr⟩ := contentOf_eq_error hc
      cases hr
    · rcases decode_eq_error _ _ _ hd with ⟨_, he⟩ | ⟨why', he, hr⟩
      · cases he
      · cases he
        exact ⟨bytes, hc, hr⟩
  · rintro ⟨bytes, hc, hr⟩
    have hr' : Markup.read (Source.ofBytes Charset.standard.encoding bytes) = .error (.broken why) := hr
    rw [hc, ok_bind]
    unfold decode
    simp only [hr']
    rfl

/-- What a load is refused for: there is no file, its content cannot be read, or is no markup. --/
theorem load_eq_refused {refusal : Refusal} (h : load fault t path = .error (.refused refusal)) :
    refusal = .notFound path.text ∨ (∃ why, refusal = .malformed path.text why) ∨
      ∃ fe, refusal = .fileError path.text fe := by
  unfold load at h
  rcases bind_eq_error.mp h with hc | ⟨bytes, hc, hd⟩
  · unfold contentOf at hc
    split at hc
    · cases hc
      exact Or.inr (Or.inr ⟨_, rfl⟩)
    · cases hc
      exact Or.inl rfl
    · cases ha : attempt fault .openFile (t.content path) with
      | error fe =>
        rw [ha] at hc
        cases hc
        exact Or.inr (Or.inr ⟨_, rfl⟩)
      | ok content => simp [ha] at hc
  · rcases decode_eq_error _ _ _ hd with ⟨why, he⟩ | ⟨_, he, -⟩
    · cases he
      exact Or.inr (Or.inl ⟨why, rfl⟩)
    · cases he

/-- A path that was loaded leads to a file. --/
theorem find_of_load (h : load fault t path = .ok d) :
    path.hasNull = false ∧ ∃ l bytes mode, t.find path = .ok l ∧ t.get? l = some (.file bytes mode) ∧
      decode path.text .standard bytes = .ok d := by
  unfold load at h
  obtain ⟨bytes, hc, hd⟩ := bind_eq_ok.mp h
  obtain ⟨hnull, l, mode, hl, hx⟩ := contentOf_eq_ok hc
  exact ⟨hnull, l, bytes, mode, hl, hx, hd⟩

/-- The target of a path that was loaded is where it was found; if there is none, the reason is a file error. --/
theorem target_of_load (ht : t.HasNames) (h : load fault t path = .ok d) (he : target fault t path = .error e) :
    ∃ fe, e = refused path fe := by
  obtain ⟨hnull, l, _, _, hl, -⟩ := find_of_load h
  rcases target_eq_error he with hfe | ⟨-, hn⟩ | ⟨-, hend⟩
  · exact hfe
  · rw [hnull] at hn
    cases hn
  · rw [FileTree.resolve_of_find hl, FileTree.isEndless_of_find ht hl] at hend
    cases hend

/-! ### Finding a tag -/

/-- Why a value has no text: it is a container that the stack has no room for, or else it is, or holds, a whole number of
    too many digits. --/
inductive Unshowable (v : Value) : Breakdown → Prop where
  | stackFull (hparts : v.isScalar = false) (h : Host.shows v = false) : Unshowable v .stackFull
  | longNumber (h : v.isScalar = true ∨ Host.shows v = true) (hl : v.HoldsLongNumber) : Unshowable v .longNumber

/-- The tag that is found has no text. --/
def ShowingBreaks (fault : Option Fault) (t : FileTree) (path : Path) (selector : Option String) (why : Breakdown) :
    Prop :=
  ∃ d slot, load fault t path = .ok d ∧ locate d selector = .ok slot ∧ Unshowable (tagValue d slot.cell) why

theorem tagText?_eq_error_iff {v : Value} : tagText? v = .error e ↔ ∃ why, e = .broken why ∧ Unshowable v why := by
  unfold tagText?
  split
  · simp only [reduceCtorEq, false_iff, not_exists, not_and]
    rintro why - (⟨hparts, -⟩ | ⟨-, hl⟩)
    · cases hparts
    · cases hl
  · by_cases hfull : v.isScalar = false ∧ Host.shows v = false
    · simp only [hfull.1, hfull.2, Bool.not_false, Bool.and_self, if_true, Except.error.injEq]
      constructor
      · rintro rfl
        exact ⟨_, rfl, .stackFull hfull.1 hfull.2⟩
      · rintro ⟨why, rfl, h | ⟨h, -⟩⟩
        · rfl
        · simp [hfull.1, hfull.2] at h
    · have hroom : v.isScalar = true ∨ Host.shows v = true := by
        rw [not_and_or, Bool.not_eq_false, Bool.not_eq_false] at hfull
        exact hfull
      have htext := Value.text?_eq_none_iff v
      rw [if_neg (by simpa [or_iff_not_imp_left] using hroom)]
      cases hv : v.text? with
      | none =>
        simp only [Except.error.injEq]
        constructor
        · rintro rfl
          exact ⟨_, rfl, .longNumber hroom (htext.mp hv)⟩
        · rintro ⟨why, rfl, ⟨hparts, h⟩ | -⟩
          · exact absurd ⟨hparts, h⟩ hfull
          · rfl
      | some s =>
        simp only [reduceCtorEq, false_iff, not_exists, not_and]
        rintro why - (⟨hparts, h⟩ | ⟨-, hl⟩)
        · exact hfull ⟨hparts, h⟩
        · cases hv.symm.trans (htext.mpr hl)

/-- Finding a tag breaks down exactly if reading the manifest does, or showing the tag. --/
theorem find_eq_broken_iff : find fault t path selector = .error (.broken why) ↔
    ReadingBreaks fault t path why ∨ ShowingBreaks fault t path selector why := by
  rw [← load_eq_broken_iff]
  unfold find ShowingBreaks
  cases hl : load fault t path with
  | error e => simp
  | ok d =>
    cases hs : locate d selector with
    | error m => simp [malformedAt, hs]
    | ok slot =>
      simp only [ok_bind, hs, mapError_ok, bind_eq_error, tagText?_eq_error_iff, pure_eq_ok]
      simp [hs]

end Retag.Manifest

import Retag.Document.Shown
import Retag.Failure
import Retag.Text.Blank

/-! Image tags. A tag has 1 to 128 characters: letters, digits and underscores of ASCII, and from the second
    character on also points and hyphens. -/

namespace Retag

open Text

namespace Tag

/-- Whether a character may start a tag. --/
def isStart (c : Char) : Bool :=
  let n := c.toNat
  (48 ≤ n && n ≤ 57) || (65 ≤ n && n ≤ 90) || n == 95 || (97 ≤ n && n ≤ 122)

/-- Whether a character may stand in a tag after the first. --/
def isInner (c : Char) : Bool :=
  isStart c || c == '.' || c == '-'

/-- Whether a row of characters is a tag. --/
def isTag : List Char → Bool
  | [] => false
  | c :: rest => isStart c && rest.all isInner && rest.length ≤ 127

end Tag

structure Tag where
  text : String
  valid : Tag.isTag text.toList = true
  deriving DecidableEq, Repr

namespace Tag

/-- The tag of a version. --/
def ofValue (version : Value) : Except BadVersion Tag :=
  match version with
  | .scalar (.str s) =>
    if isBlankText s then .error .blank
    else if h : isTag s.toList = true then .ok ⟨s, h⟩
    else .error (.badFormat s)
  | .scalar (.torn t) => .error (.badFormat (.torn t))
  | v => .error (.notText v.kindName)

theorem not_isBlank_of_isStart {c : Char} (h : isStart c = true) : isBlank c = false := by
  simp only [isStart, Bool.or_eq_true, Bool.and_eq_true, decide_eq_true_eq, beq_iff_eq] at h
  simp only [isBlank, Bool.or_eq_false_iff, Bool.and_eq_false_iff, decide_eq_false_iff_not, beq_eq_false_iff_ne]
  omega

/-- A tag is not blank. --/
theorem not_isBlankText (t : Tag) : isBlankText t.text = false := by
  have hv := t.valid
  unfold isBlankText
  cases hs : t.text.toList with
  | nil =>
    rw [hs] at hv
    cases hv
  | cons c rest =>
    rw [hs] at hv
    simp only [isTag, Bool.and_eq_true] at hv
    simp [not_isBlank_of_isStart hv.1.1]

/-- Exactly the tags are accepted, as they are. --/
theorem ofValue_eq_ok {version : Value} {t : Tag} : ofValue version = .ok t ↔ version = .str t.text := by
  constructor
  · intro h
    unfold ofValue at h
    split at h
    · split at h
      · cases h
      · split at h
        · cases h
          rfl
        · cases h
    · cases h
    · cases h
  · rintro rfl
    simp [ofValue, Value.str, not_isBlankText t, t.valid]

end Tag

end Retag

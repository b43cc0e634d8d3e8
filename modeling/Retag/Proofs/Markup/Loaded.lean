import Retag.Proofs.Calendar.Timestamp
import Retag.Proofs.Markup.Float
import Retag.Proofs.Markup.Shows
import Retag.Proofs.Text.Base64

/-! Scalars that were read. What is written for a scalar that was read is read as the scalar: numbers are regular, and
    moments have whole seconds and an offset of whole minutes. -/

namespace Retag

open Markup

namespace Scalar

/-- A scalar that is read from some text under some tag. --/
def IsLoaded (v : Scalar) : Prop :=
  ∃ tag text, readText tag text = .ok v

/-- What is known of the numbers and moments that are read. --/
def IsExact : Scalar → Prop
  | .float x => x.IsRegular
  | .moment m => m.IsWhole
  | _ => True

/-- Whether a scalar is no text that stands between single quotes and is not kept by them. --/
def IsKept : Scalar → Prop
  | .str s => Style.allowsSingle s.toList = true → ∀ x ∈ s.toList, x ≠ '\x85'
  | _ => True

instance : (v : Scalar) → Decidable v.IsKept
  | .str s =>
    have : Decidable (∀ x ∈ s.toList, x ≠ '\x85') := List.decidableBAll (fun x => x ≠ '\x85') s.toList
    inferInstanceAs (Decidable (Style.allowsSingle s.toList = true → ∀ x ∈ s.toList, x ≠ '\x85'))
  | .null | .bool _ | .int _ | .float _ | .torn _ | .bytes _ | .date _ | .moment _ => isTrue trivial

end Scalar

namespace Markup

variable {cs : List Char} {tag : Tag} {text : Text.Wobbly} {s : String} {literal : Bool} {v : Scalar}

theorem isExact_of_readScalar (h : readScalar tag s = .ok v) : v.IsExact := by
  cases tag with
  | null =>
    cases h
    trivial
  | bool =>
    obtain ⟨b, -, rfl⟩ := map_eq_ok.mp h
    trivial
  | int =>
    obtain ⟨n, -, rfl⟩ := map_eq_ok.mp h
    trivial
  | float =>
    obtain ⟨x, hx, rfl⟩ := map_eq_ok.mp h
    exact isRegular_readFloat hx
  | binary =>
    simp only [readScalar, readBinary] at h
    split at h
    · split at h
      · cases h
        trivial
      · cases h
    · cases h
  | timestamp =>
    simp only [readScalar, readTimestamp] at h
    split at h
    · cases h
    · rename_i p hp
      split at h
      · cases h
        trivial
      · rename_i m hm
        cases h
        exact Calendar.isWhole_of_stamp? hp hm
      · cases h
  | str =>
    cases h
    trivial
  | _ => cases h

/-- Numbers that are read are regular, and moments are whole. --/
theorem isExact_of_isLoaded (h : v.IsLoaded) : v.IsExact := by
  obtain ⟨tag, text, hread⟩ := h
  cases text with
  | whole s => exact isExact_of_readScalar hread
  | torn t =>
    rw [readText_torn] at hread
    split at hread
    · cases hread
      trivial
    · exact isExact_of_readScalar hread

/-! ### Reading again -/

/-- The characters of base 64 are ASCII, end no line and leave no gap. --/
theorem isInline_of_isDigit {x : Char} (h : Text.Base64.IsDigit x) : x.toNat < 128 ∧ isInline x = true ∧ x ≠ ' ' := by
  have hall : ∀ n < 64, (Text.Base64.digit n).toNat < 128 ∧ isInline (Text.Base64.digit n) = true ∧
      Text.Base64.digit n ≠ ' ' := by decide
  rcases h with rfl | ⟨n, hn, rfl⟩
  · decide
  · exact hall n hn

theorem isLine_encodeGroups {bs : List UInt8} (h : bs ≠ []) : IsLine (Text.Base64.encodeGroups bs) where
  ne_nil := Text.Base64.encodeGroups_ne_nil h
  inline := fun _ hx => (isInline_of_isDigit (Text.Base64.isDigit_of_mem_encodeGroups hx)).2.1
  noSpace := fun hhead =>
    (isInline_of_isDigit (Text.Base64.isDigit_of_mem_encodeGroups (List.mem_of_mem_head? hhead))).2.2 rfl

theorem areLines_encodeLines {bs : List UInt8} (h : bs ≠ []) : AreLines (Text.Base64.encodeLines bs) := by
  induction bs using Text.Base64.encodeLines.induct with
  | case1 bs hempty => exact absurd (List.isEmpty_iff.mp hempty) h
  | case2 bs _ ih =>
    have hline : IsLine (Text.Base64.encodeGroups (bs.take Text.Base64.lineBytes)) :=
      isLine_encodeGroups fun htake => h ((List.take_eq_nil_iff.mp htake).resolve_left (by decide))
    rw [Text.Base64.encodeLines_of_ne_nil h]
    by_cases hdrop : bs.drop Text.Base64.lineBytes = []
    · rw [hdrop, Text.Base64.encodeLines_nil]
      exact .last hline
    · exact .cons hline (ih hdrop)

theorem ascii_of_mem_encodeLines {bs : List UInt8} {x : Char} (h : x ∈ Text.Base64.encodeLines bs) : x.toNat < 128 := by
  induction bs using Text.Base64.encodeLines.induct with
  | case1 bs hempty =>
    rw [List.isEmpty_iff.mp hempty, Text.Base64.encodeLines_nil] at h
    cases h
  | case2 bs hempty ih =>
    rw [Text.Base64.encodeLines_of_ne_nil (by simpa using hempty)] at h
    rcases List.mem_append.mp h with h | h
    · exact (isInline_of_isDigit (Text.Base64.isDigit_of_mem_encodeGroups h)).1
    · rcases List.mem_cons.mp h with rfl | h
      · decide
      · exact ih h

theorem readBinary_encodeLines (bs : List UInt8) : readBinary (Text.Base64.encodeLines bs) = .ok (.bytes bs) := by
  have hascii : (Text.Base64.encodeLines bs).all (fun c => decide (c.toNat < 128)) = true :=
    List.all_eq_true.mpr fun x hx => decide_eq_true (ascii_of_mem_encodeLines hx)
  simp only [readBinary, hascii, if_true, Text.Base64.decode?_encodeLines]

theorem readTimestamp_eq {stamp : Calendar.Stamp} (h : (Calendar.readParts? cs).bind Calendar.Parts.stamp? = some stamp) :
    readTimestamp cs = .ok (match stamp with
      | .date d => .date d
      | .moment m => .moment m) := by
  obtain ⟨p, hp, hstamp⟩ := Option.bind_eq_some_iff.mp h
  simp only [readTimestamp, hp, hstamp]
  cases stamp <;> rfl

/-- A scalar that was read is read from what is written for it. --/
theorem readText_scalarForm (h : v.IsLoaded) (hform : scalarForm v = .ok (tag, text, literal)) :
    readText tag text = .ok v := by
  have hexact := isExact_of_isLoaded h
  cases v with
  | null =>
    cases hform
    rfl
  | bool b =>
    cases b <;>
    · cases hform
      rfl
  | int n =>
    obtain ⟨s, hw, heq⟩ := scalarForm_int_eq_ok hform
    cases heq
    rw [readText_whole, readScalar, readInt_writeInt hw, map_ok]
  | float x =>
    cases hform
    rw [readText_whole, readScalar, readFloat_floatForm hexact, map_ok]
  | str s =>
    cases hform
    rfl
  | torn t =>
    cases hform
    rw [readText_torn, if_pos rfl]
  | bytes bs =>
    cases hform
    rw [readText_whole, readScalar, String.toList_ofList, readBinary_encodeLines]
  | date d =>
    cases hform
    rw [readText_whole, readScalar, readTimestamp_eq d.stamp?_text]
  | moment m =>
    cases hform
    rw [readText_whole, readScalar, readTimestamp_eq hexact.stamp?_text]

/-! ### Texts that can be read again -/

theorem ne_nil_of_readScalar (h : readScalar tag s = .ok v) (htag : tag ∈ [.bool, .int, .float, .timestamp]) :
    s.toList ≠ [] := by
  intro hempty
  simp only [List.mem_cons, List.not_mem_nil, or_false] at htag
  rcases htag with rfl | rfl | rfl | rfl <;> rw [readScalar, hempty] at h <;> cases h

theorem isPrintable_of_isStampChar (h : ∀ x ∈ cs, Calendar.isStampChar x = true) : ArePrintable cs := by
  have hall : ("0123456789-:. +".toList.all fun x => decide (IsPrintable x)) = true := by decide
  exact fun x hx => of_decide_eq_true (List.all_eq_true.mp hall x (List.contains_iff_mem.mp (h x hx)))

theorem arePrintable_writeInt {n : Int} {s : String} (h : Number.writeInt? n = some s) : ArePrintable s.toList := by
  intro x hx
  rw [(writeInt?_eq_some h).1] at hx
  rcases List.mem_append.mp hx with hx | hx
  · split at hx
    · obtain rfl := List.mem_singleton.mp hx
      decide
    · cases hx
  · exact Number.forall_digit (P := IsPrintable) (by decide) (Number.isDigit_of_mem_toDigits hx)

/-- Whatever is no text and no row of bytes is written in one printable word. --/
theorem arePrintable_of_isLoaded (h : v.IsLoaded) (htext : ∀ text, v ≠ .str text ∧ ∀ t, v ≠ .torn t)
    (hbytes : ∀ bs, v ≠ .bytes bs) (hform : scalarForm v = .ok (tag, text, literal)) :
    ∃ s, text = .whole s ∧ literal = false ∧ s.toList ≠ [] ∧ ArePrintable s.toList := by
  have hread := readText_scalarForm h hform
  have hexact := isExact_of_isLoaded h
  have hne : ∀ s, text = .whole s → tag ∈ [.bool, .int, .float, .timestamp] → s.toList ≠ [] := by
    rintro s rfl
    exact ne_nil_of_readScalar hread
  cases v with
  | null =>
    cases hform
    exact ⟨_, rfl, rfl, by decide, by decide⟩
  | bool b =>
    cases b <;>
    · cases hform
      exact ⟨_, rfl, rfl, by decide, by decide⟩
  | int n =>
    obtain ⟨s, hw, heq⟩ := scalarForm_int_eq_ok hform
    cases heq
    exact ⟨_, rfl, rfl, hne _ rfl (by decide), arePrintable_writeInt hw⟩
  | float x =>
    cases hform
    exact ⟨_, rfl, rfl, hne _ rfl (by decide), arePrintable_floatForm hexact⟩
  | str s => exact absurd rfl (htext s).1
  | torn t => exact absurd rfl ((htext "").2 t)
  | bytes bs => exact absurd rfl (hbytes bs)
  | date d =>
    cases hform
    exact ⟨_, rfl, rfl, hne _ rfl (by decide), isPrintable_of_isStampChar (Calendar.isStampChar_date d)⟩
  | moment m =>
    cases hform
    exact ⟨_, rfl, rfl, hne _ rfl (by decide), isPrintable_of_isStampChar hexact.isStampChar⟩

theorem isClear_encodeLines (simple : Bool) (bs : List UInt8) :
    Outline.IsClear simple .binary (Text.Base64.encodeLines bs) true := by
  unfold Outline.IsClear
  cases hstyle : Style.choose .binary (Text.Base64.encodeLines bs) true simple
  case literal =>
    refine areLines_encodeLines ?_
    rintro rfl
    rw [Text.Base64.encodeLines_nil] at hstyle
    cases simple <;> cases hstyle
  case double => trivial
  all_goals
    rw [Style.choose, if_pos rfl] at hstyle
    split at hstyle <;> cases hstyle

/-- What is written for a scalar that was read, and that is kept, can be read again. --/
theorem isClear_of_isLoaded (h : v.IsLoaded) (hkept : v.IsKept) (hform : scalarForm v = .ok (tag, text, literal))
    (simple : Bool) : Outline.IsClearText simple tag text literal := by
  have hword : (∀ s, v ≠ .str s ∧ ∀ t, v ≠ .torn t) → (∀ bs, v ≠ .bytes bs) →
      Outline.IsClearText simple tag text literal := by
    intro htext hbytes
    obtain ⟨s, rfl, rfl, hne, hprintable⟩ := arePrintable_of_isLoaded h htext hbytes hform
    refine Outline.isClear_of_not_literal simple (fun hempty => absurd hempty hne) fun _ x hx => ?_
    rintro rfl
    exact absurd (hprintable _ hx).2 (by decide)
  cases v with
  | str s =>
    cases hform
    exact Outline.isClear_of_not_literal simple (fun _ => rfl) hkept
  | torn t =>
    cases hform
    rfl
  | bytes bs =>
    cases hform
    rw [Outline.IsClearText, String.toList_ofList]
    exact isClear_encodeLines simple bs
  | _ => exact hword (fun _ => ⟨Scalar.noConfusion, fun _ => Scalar.noConfusion⟩) fun _ => Scalar.noConfusion

end Markup

end Retag

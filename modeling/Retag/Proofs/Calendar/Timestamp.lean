import Mathlib.Data.List.Induction
import Mathlib.Data.List.TakeDrop
import Mathlib.Data.List.TakeWhile
import Retag.Calendar.Timestamp
import Retag.Proofs.Number.Decimal

/-! Days and moments written and read again. Every field has as many digits as are read for it, and every offset that is
    read is one of whole minutes, so nothing of what was read is lost. -/

namespace Retag.Calendar

open Number

variable {cs : List Char} {n width : Nat}

/-! ### Fields -/

theorem length_padded (hw : 0 < width) (h : n < 10 ^ width) : (padded width n).length = width := by
  have hlen : (Nat.toDigits 10 n).length ≤ width := (Nat.length_toDigits_le_iff (by decide) hw).mpr h
  simp only [padded, List.length_append, List.length_replicate]
  omega

theorem digitsValue_padded (width n : Nat) : digitsValue (padded width n) = n :=
  ofDigitChars_padded width n

/-- A field of full width is taken off. --/
theorem takeDigits_padded (least : Nat) (hleast : least ≤ width) (hw : 0 < width) (h : n < 10 ^ width) (cs : List Char) :
    takeDigits least width (padded width n ++ cs) = some (n, cs) := by
  have hlen := length_padded hw h
  have htake : ((padded width n ++ cs).take width).takeWhile Char.isDigit = padded width n := by
    rw [List.take_left' hlen, List.takeWhile_eq_self_iff.mpr fun x hx => isDigit_of_mem_padded hx]
  simp only [takeDigits, htake, hlen, Nat.not_lt.mpr hleast, if_false, digitsValue_padded, List.drop_left' hlen]

theorem head_padded (width n : Nat) : ∃ d ds, padded width n = d :: ds ∧ d.isDigit = true := by
  have hne : padded width n ≠ [] := fun h => Nat.toDigits_ne_nil (List.append_eq_nil_iff.mp h).2
  obtain ⟨d, ds, hds⟩ := List.exists_cons_of_ne_nil hne
  exact ⟨d, ds, hds, isDigit_of_mem_padded (hds ▸ List.mem_cons_self)⟩

theorem digitsValue_lt (h : ∀ x ∈ cs, x.isDigit = true) : digitsValue cs < 10 ^ cs.length := by
  induction cs using List.reverseRecOn with
  | nil => decide
  | append_singleton cs x ih =>
    have hx : x.toNat - 48 ≤ 9 := forall_digit (P := fun x => x.toNat - 48 ≤ 9) (by decide) (h x (by simp))
    have hcs := ih fun y hy => h y (List.mem_append_left _ hy)
    have hvalue : digitsValue (cs ++ [x]) = 10 * digitsValue cs + (x.toNat - 48) := by
      simp [digitsValue]
    rw [hvalue, List.length_append, List.length_singleton, Nat.pow_succ]
    omega

/-! ### Days -/

theorem daysIn_le (year month : Nat) : daysIn year month ≤ 31 ∧ (0 < daysIn year month → month ≤ 12) := by
  unfold daysIn
  split
  · cases isLeap year <;> decide
  all_goals first | exact ⟨by decide, fun _ => by decide⟩ | exact ⟨by decide, nofun⟩

theorem Date.bounds (d : Date) : d.year < 10 ^ 4 ∧ d.month < 10 ^ 2 ∧ d.day < 10 ^ 2 := by
  have hvalid := d.valid
  simp only [isDate, Bool.and_eq_true, decide_eq_true_eq] at hvalid
  obtain ⟨hdays, hmonth⟩ := daysIn_le d.year d.month
  have := hmonth (by omega)
  exact ⟨by omega, by omega, by omega⟩

theorem Date.ofParts?_self (d : Date) : Date.ofParts? d.year d.month d.day = some d := by
  rw [ofParts?, dif_pos d.valid]

theorem Date.text_append (d : Date) (cs : List Char) : d.text.toList ++ cs =
    padded 4 d.year ++ ('-' :: (padded 2 d.month ++ ('-' :: (padded 2 d.day ++ cs)))) := by
  simp [Date.text]

theorem readParts?_date (d : Date) : readParts? d.text.toList = some ⟨d.year, d.month, d.day, none⟩ := by
  obtain ⟨hyear, hmonth, hday⟩ := d.bounds
  have htext := d.text_append []
  rw [List.append_nil] at htext
  simp only [readParts?, htext, takeDigits_padded 4 (by decide) (by decide) hyear,
    takeDigits_padded 1 (by decide) (by decide) hmonth,
    takeDigits_padded 1 (by decide) (by decide) hday, takeChar, if_true, Option.bind_eq_bind, Option.bind_some,
    Option.pure_def]
  rfl

theorem not_isGap_of_isDigit {x : Char} (h : x.isDigit = true) : isGap x = false :=
  forall_digit (P := fun x => isGap x = false) (by decide) h

/-- Behind a day and a space, a time is read. --/
theorem readParts?_time (d : Date) {x : Char} (hx : x.isDigit = true) (cs : List Char) :
    readParts? (d.text.toList ++ ' ' :: x :: cs) =
      (readTime? (x :: cs)).map fun time => ⟨d.year, d.month, d.day, some time⟩ := by
  obtain ⟨hyear, hmonth, hday⟩ := d.bounds
  have hdrop : (x :: cs).dropWhile isGap = x :: cs := List.dropWhile_cons_of_neg (by simp [not_isGap_of_isDigit hx])
  have hspace : isGap ' ' = true := by decide
  have hend : atEnd (' ' :: x :: cs) = false := by simp [atEnd]
  simp only [readParts?, d.text_append, takeDigits_padded 4 (by decide) (by decide) hyear,
    takeDigits_padded 1 (by decide) (by decide) hmonth,
    takeDigits_padded 1 (by decide) (by decide) hday, takeChar, if_true, Option.bind_eq_bind, Option.bind_some,
    Option.pure_def, hend, Bool.false_eq_true, if_false]
  split
  · rename_i heq
    cases (List.cons.inj heq).1
  · rename_i heq
    cases (List.cons.inj heq).1
  · rename_i heq
    obtain ⟨rfl, rfl⟩ := List.cons.inj heq
    simp only [hspace, if_true, hdrop, Option.map_eq_bind, Function.comp_def]
  · rename_i heq
    cases heq

/-! ### Moments -/

/-- An offset of whole minutes. --/
def Offset.IsWhole (o : Offset) : Prop :=
  ∃ n : Int, o.microseconds = n * (60 * perSecond)

/-- A moment as it can be read: its second is not over, and its offset is one of whole minutes. --/
structure Moment.IsWhole (m : Moment) : Prop where
  microsecond : m.microsecond < perSecond
  offset : ∀ o, m.offset = some o → o.IsWhole

theorem Offset.ofMinutes?_eq_some {n : Int} {o : Offset} (h : ofMinutes? n = some o) :
    o.microseconds = n * (60 * perSecond) := by
  unfold ofMinutes? ofMicroseconds? at h
  split at h
  · cases h
    rfl
  · cases h

/-- The digits of a fraction are digits. --/
theorem fraction_of_readTime? {time : TimeParts} (h : readTime? cs = some time) :
    ∀ x ∈ time.fraction, x.isDigit = true := by
  simp only [readTime?, Option.bind_eq_bind, Option.bind_eq_some_iff, Option.pure_def] at h
  obtain ⟨_, _, _, _, _, _, _, _, ⟨second, rest⟩, _, h⟩ := h
  dsimp only at h
  obtain ⟨offset, -, h⟩ := h
  cases h
  split
  · rw [List.span_eq_takeWhile_dropWhile]
    exact fun x hx => List.mem_takeWhile_imp hx
  · exact nofun

theorem microseconds_lt (h : ∀ x ∈ cs, x.isDigit = true) : microseconds cs < perSecond := by
  have hlen : ((cs.take 6) ++ List.replicate (6 - (cs.take 6).length) '0').length = 6 := by
    simp only [List.length_append, List.length_replicate, List.length_take]
    omega
  have hlt := @digitsValue_lt ((cs.take 6) ++ List.replicate (6 - (cs.take 6).length) '0') fun x hx => by
    rcases List.mem_append.mp hx with hx | hx
    · exact h x (List.mem_of_mem_take hx)
    · rw [(List.mem_replicate.mp hx).2]
      rfl
  rwa [hlen] at hlt

theorem ofParts?_eq_some {date : Date} {hour minute second microsecond : Nat} {offset : Option Offset} {m : Moment}
    (h : Moment.ofParts? date hour minute second microsecond offset = some m) :
    m.microsecond = microsecond ∧ m.offset = offset := by
  unfold Moment.ofParts? at h
  split at h
  · cases h
    exact ⟨rfl, rfl⟩
  · cases h

/-- A moment has the fraction and the offset of the parts that name it. --/
theorem Parts.stamp?_eq_moment {p : Parts} {m : Moment} (h : p.stamp? = some (.moment m)) : ∃ time, p.time = some time ∧
    m.microsecond = microseconds time.fraction ∧ ∀ o, m.offset = some o → ∃ n, Offset.ofMinutes? n = some o := by
  unfold stamp? at h
  cases htime : p.time with
  | none => simp [htime, Option.bind_eq_some_iff] at h
  | some time =>
    refine ⟨time, rfl, ?_⟩
    simp only [htime, Option.bind_eq_bind, Option.pure_def] at h
    split at h
    · simp only [Option.bind_eq_some_iff] at h
      obtain ⟨offset, hoffset, date, -, m', hm, h⟩ := h
      cases h
      cases hoffset
      obtain ⟨hmicro, ho⟩ := ofParts?_eq_some hm
      exact ⟨hmicro, fun o hmo => by cases ho.symm.trans hmo⟩
    · simp only [Option.bind_eq_some_iff, Option.map_eq_some_iff] at h
      obtain ⟨offset, ⟨o, ho, rfl⟩, date, -, m', hm, h⟩ := h
      cases h
      obtain ⟨hmicro, hoffset⟩ := ofParts?_eq_some hm
      exact ⟨hmicro, fun o' ho' => ⟨_, by rw [ho, ← hoffset, ho']⟩⟩

theorem time_of_readParts? {p : Parts} {time : TimeParts} (h : readParts? cs = some p) (htime : p.time = some time) :
    ∃ clock, readTime? clock = some time := by
  simp only [readParts?, Option.bind_eq_bind, Option.bind_eq_some_iff, Option.pure_def] at h
  obtain ⟨_, _, _, _, _, _, _, _, _, _, h⟩ := h
  split at h
  · cases h
    cases htime
  · have hread : ∀ {clock : List Char} {q : Parts} {year month day : Nat},
        (readTime? clock).bind (fun t => some (Parts.mk year month day (some t))) = some q → q.time = some time →
          readTime? clock = some time := by
      intro clock q year month day hq hqt
      obtain ⟨t, ht, hq⟩ := Option.bind_eq_some_iff.mp hq
      cases hq
      cases hqt
      exact ht
    split at h
    · exact ⟨_, hread h htime⟩
    · exact ⟨_, hread h htime⟩
    · split at h
      · exact ⟨_, hread h htime⟩
      · cases h
    · cases h

theorem isWhole_of_stamp? {p : Parts} {m : Moment} (hp : readParts? cs = some p) (h : p.stamp? = some (.moment m)) :
    m.IsWhole := by
  obtain ⟨time, htime, hmicro, hoffset⟩ := p.stamp?_eq_moment h
  obtain ⟨clock, hclock⟩ := time_of_readParts? hp htime
  refine ⟨hmicro ▸ microseconds_lt (fraction_of_readTime? hclock), fun o ho => ?_⟩
  obtain ⟨n, hn⟩ := hoffset o ho
  exact ⟨n, Offset.ofMinutes?_eq_some hn⟩

namespace Offset

/-- The fields of an offset of whole minutes: whether it is westward, its hours and its minutes. --/
def fields (o : Offset) : Bool × Nat × Nat :=
  (o.microseconds < 0, o.microseconds.natAbs / (60 * perSecond) / 60, o.microseconds.natAbs / (60 * perSecond) % 60)

variable {o : Offset}

theorem fields_lt (o : Offset) : o.fields.2.1 < 10 ^ 2 ∧ o.fields.2.2 < 10 ^ 2 := by
  have hsmall := o.small
  simp only [fields, perDay, perSecond] at hsmall ⊢
  omega

theorem IsWhole.text_eq (h : o.IsWhole) : o.text.toList =
    (if o.fields.1 then '-' else '+') :: (padded 2 o.fields.2.1 ++ ':' :: padded 2 o.fields.2.2) := by
  obtain ⟨n, hn⟩ := h
  have hrest : o.microseconds.natAbs % perSecond = 0 := by
    simp only [perSecond] at hn ⊢
    omega
  have hseconds : o.microseconds.natAbs / perSecond % 60 = 0 := by
    simp only [perSecond] at hn ⊢
    omega
  have hhours : o.microseconds.natAbs / perSecond / 3600 = o.microseconds.natAbs / (60 * perSecond) / 60 := by
    simp only [perSecond]
    omega
  have hminutes : o.microseconds.natAbs / perSecond / 60 % 60 = o.microseconds.natAbs / (60 * perSecond) % 60 := by
    simp only [perSecond]
    omega
  simp only [text, String.toList_ofList, hrest, hseconds, hhours, hminutes, fields]
  simp

theorem IsWhole.ofMinutes?_fields (h : o.IsWhole) :
    ofMinutes? (if o.fields.1 then -(o.fields.2.1 * 60 + o.fields.2.2) else o.fields.2.1 * 60 + o.fields.2.2) =
      some o := by
  obtain ⟨n, hn⟩ := h
  have hvalue : (if o.fields.1 then -((o.fields.2.1 : Int) * 60 + o.fields.2.2) else o.fields.2.1 * 60 + o.fields.2.2) *
      (60 * perSecond) = o.microseconds := by
    simp only [fields, perSecond, decide_eq_true_eq] at hn ⊢
    split <;> omega
  unfold ofMinutes?
  rw [hvalue, ofMicroseconds?, dif_pos o.small]

/-- An offset of whole minutes is read from its text. --/
theorem IsWhole.readOffset?_text (h : o.IsWhole) : readOffset? o.text.toList = some (some o.fields) := by
  obtain ⟨hhours, hminutes⟩ := o.fields_lt
  have hread : ∀ c, (c = '+' ∨ c = '-') →
      readOffset? (c :: (padded 2 o.fields.2.1 ++ ':' :: padded 2 o.fields.2.2)) =
        some (some (c == '-', o.fields.2.1, o.fields.2.2)) := by
    intro c hc
    have hgap : isGap c = false := by rcases hc with rfl | rfl <;> decide
    have htake := @takeDigits_padded o.fields.2.2 2 2 (by decide) (by decide) hminutes []
    rw [List.append_nil] at htake
    have hsign : c ≠ 'Z' := by rcases hc with rfl | rfl <;> decide
    have hend : ∀ x ys, x ≠ '\n' → atEnd (x :: ys) = false := fun x ys hx => by simp [atEnd, hx]
    have hnone : atEnd [] = true := rfl
    simp only [readOffset?, hend c _ (by rcases hc with rfl | rfl <;> decide), Bool.false_eq_true, if_false,
      List.dropWhile_cons_of_neg (p := isGap) (a := c) (by simp [hgap]), hc, if_true,
      takeDigits_padded 1 (by decide) (by decide) hhours, Option.bind_eq_bind, Option.bind_some,
      hend ':' _ (by decide), takeChar, htake, hnone, guard, Option.pure_def, Bool.or_eq_true, decide_eq_true_eq]
  rw [h.text_eq]
  cases hwest : o.fields.1
  · rw [if_neg (by decide), hread _ (.inl rfl)]
    rw [show o.fields = (o.fields.1, o.fields.2) from rfl, hwest]
    rfl
  · rw [if_pos rfl, hread _ (.inr rfl)]
    rw [show o.fields = (o.fields.1, o.fields.2) from rfl, hwest]
    rfl

end Offset

namespace Moment

variable {m : Moment}

def offsetText (m : Moment) : List Char :=
  ((m.offset.map Offset.text).getD "").toList

def fractionText (m : Moment) : List Char :=
  if m.microsecond = 0 then [] else padded 6 m.microsecond

theorem text_eq (m : Moment) : (m.text ' ').toList = m.date.text.toList ++ ' ' :: (padded 2 m.hour ++
    ':' :: (padded 2 m.minute ++ ':' :: (padded 2 m.second ++
      ((if m.microsecond = 0 then [] else '.' :: padded 6 m.microsecond) ++ m.offsetText)))) := by
  simp [text, offsetText]

theorem IsWhole.readOffset?_offsetText (h : m.IsWhole) :
    readOffset? m.offsetText = some (m.offset.map Offset.fields) := by
  unfold offsetText
  cases ho : m.offset with
  | none => rfl
  | some o => exact (h.offset o ho).readOffset?_text

theorem IsWhole.head_offsetText (h : m.IsWhole) : ∀ x ∈ m.offsetText.head?, x = '+' ∨ x = '-' := by
  unfold offsetText
  cases ho : m.offset with
  | none => exact nofun
  | some o =>
    rw [Option.map_some, Option.getD_some, (h.offset o ho).text_eq]
    intro x hx
    cases hx
    cases o.fields.1
    · exact .inl rfl
    · exact .inr rfl

theorem microseconds_fractionText (h : m.microsecond < perSecond) : microseconds m.fractionText = m.microsecond := by
  unfold fractionText
  split
  · rename_i hzero
    rw [hzero]
    rfl
  · have hlen := length_padded (show 0 < 6 by decide) h
    simp only [microseconds, List.take_of_length_le (Nat.le_of_eq hlen), hlen, Nat.sub_self, List.replicate_zero,
      List.append_nil, digitsValue_padded]

/-- Behind the seconds the fraction is told from the offset. --/
theorem IsWhole.split_fractionText (h : m.IsWhole) :
    (match (if m.microsecond = 0 then [] else '.' :: padded 6 m.microsecond) ++ m.offsetText with
      | '.' :: rest => rest.span Char.isDigit
      | _ => ([], (if m.microsecond = 0 then [] else '.' :: padded 6 m.microsecond) ++ m.offsetText)) =
        (m.fractionText, m.offsetText) := by
  have hhead := h.head_offsetText
  unfold fractionText
  split
  · rename_i rest heq
    split at heq
    · rw [List.nil_append] at heq
      rcases hhead '.' (by rw [heq]; rfl) with hx | hx <;> cases hx
    · rename_i hzero
      obtain ⟨-, rfl⟩ := List.cons.inj heq
      rw [if_neg hzero]
      refine Binary64.spanDigits_append (fun x hx => isDigit_of_mem_padded hx) fun x hx => ?_
      rcases hhead x hx with rfl | rfl <;> rfl
  · rename_i hother
    split
    · rfl
    · rename_i hzero
      exact absurd (by rw [if_neg hzero]; rfl) (hother _)

/-- The time of a moment is read from what is written for it. --/
theorem IsWhole.readTime?_text (h : m.IsWhole) : readTime? (padded 2 m.hour ++ ':' :: (padded 2 m.minute ++
    ':' :: (padded 2 m.second ++ ((if m.microsecond = 0 then [] else '.' :: padded 6 m.microsecond) ++ m.offsetText)))) =
      some ⟨m.hour, m.minute, m.second, m.fractionText, m.offset.map Offset.fields⟩ := by
  have hvalid := m.valid
  simp only [isTime, Bool.and_eq_true, decide_eq_true_eq] at hvalid
  have hhour : m.hour < 10 ^ 2 := by omega
  have hminute : m.minute < 10 ^ 2 := by omega
  have hsecond : m.second < 10 ^ 2 := by omega
  have hrest : ∀ split : List Char × List Char, split = (m.fractionText, m.offsetText) →
      (readOffset? split.2).bind (fun offset => some (TimeParts.mk m.hour m.minute m.second split.1 offset)) =
        some ⟨m.hour, m.minute, m.second, m.fractionText, m.offset.map Offset.fields⟩ := by
    rintro _ rfl
    rw [h.readOffset?_offsetText, Option.bind_some]
  simp only [readTime?, takeDigits_padded 1 (by decide) (by decide) hhour,
    takeDigits_padded 2 (by decide) (by decide) hminute,
    takeDigits_padded 2 (by decide) (by decide) hsecond, takeChar, if_true, Option.bind_eq_bind,
    Option.bind_some, Option.pure_def]
  exact hrest _ h.split_fractionText

/-- A whole moment is read from its text. --/
theorem IsWhole.stamp?_text (h : m.IsWhole) :
    ((readParts? (m.text ' ').toList).bind Parts.stamp?) = some (.moment m) := by
  obtain ⟨d, ds, hds, hd⟩ := head_padded 2 m.hour
  have htime := h.readTime?_text
  rw [text_eq]
  rw [hds, List.cons_append] at htime ⊢
  rw [readParts?_time _ hd, htime, Option.map_some, Option.bind_some, Parts.stamp?]
  have hmoment : ofParts? m.date m.hour m.minute m.second (microseconds m.fractionText) m.offset = some m := by
    rw [microseconds_fractionText h.microsecond, ofParts?, dif_pos m.valid]
  cases ho : m.offset with
  | none =>
    rw [ho] at hmoment
    simp only [Option.map_none, Option.bind_eq_bind, Option.bind_some, Date.ofParts?_self, hmoment, Option.pure_def]
  | some o =>
    rw [ho] at hmoment
    simp only [Option.map_some, (h.offset o ho).ofMinutes?_fields, Option.bind_eq_bind, Option.bind_some,
      Date.ofParts?_self, hmoment, Option.pure_def]

end Moment

theorem Date.stamp?_text (d : Date) : ((readParts? d.text.toList).bind Parts.stamp?) = some (.date d) := by
  rw [readParts?_date, Option.bind_some, Parts.stamp?]
  simp only [Date.ofParts?_self, Option.bind_eq_bind, Option.bind_some, Option.pure_def]

/-! ### The characters of a timestamp -/

/-- Whether a character is one that timestamps are written with. --/
def isStampChar (x : Char) : Bool :=
  "0123456789-:. +".toList.contains x

theorem isStampChar_padded (width n : Nat) : ∀ x ∈ padded width n, isStampChar x = true := fun _ hx =>
  forall_digit (P := fun x => isStampChar x = true) (by decide) (isDigit_of_mem_padded hx)

theorem isStampChar_date (d : Date) : ∀ x ∈ d.text.toList, isStampChar x = true := by
  intro x hx
  rw [← List.append_nil d.text.toList, d.text_append] at hx
  simp only [List.mem_append, List.mem_cons, List.not_mem_nil, or_false] at hx
  rcases hx with hx | rfl | hx | rfl | hx
  · exact isStampChar_padded _ _ x hx
  · decide
  · exact isStampChar_padded _ _ x hx
  · decide
  · exact isStampChar_padded _ _ x hx

theorem Offset.IsWhole.isStampChar {o : Offset} (h : o.IsWhole) : ∀ x ∈ o.text.toList, isStampChar x = true := by
  intro x hx
  rw [h.text_eq] at hx
  simp only [List.mem_append, List.mem_cons] at hx
  rcases hx with rfl | hx | rfl | hx
  · cases o.fields.1 <;> decide
  · exact isStampChar_padded _ _ x hx
  · decide
  · exact isStampChar_padded _ _ x hx

theorem Moment.IsWhole.isStampChar {m : Moment} (h : m.IsWhole) : ∀ x ∈ (m.text ' ').toList, isStampChar x = true := by
  intro x hx
  rw [text_eq] at hx
  simp only [List.mem_append, List.mem_cons] at hx
  rcases hx with hx | rfl | hx | rfl | hx | rfl | hx | hx | hx
  · exact isStampChar_date _ x hx
  · decide
  · exact isStampChar_padded _ _ x hx
  · decide
  · exact isStampChar_padded _ _ x hx
  · decide
  · exact isStampChar_padded _ _ x hx
  · split at hx
    · cases hx
    · rcases List.mem_cons.mp hx with rfl | hx
      · decide
      · exact isStampChar_padded _ _ x hx
  · unfold offsetText at hx
    cases ho : m.offset with
    | none =>
      rw [ho] at hx
      cases hx
    | some o =>
      rw [ho] at hx
      exact (h.offset o ho).isStampChar x hx

end Retag.Calendar

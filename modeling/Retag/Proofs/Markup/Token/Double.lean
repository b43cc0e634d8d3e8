import Retag.Proofs.Markup.Token.Single
import Retag.Proofs.Text.Hex

/-! Scalars between double quotes, written and read. A character that cannot stand for itself is written as an escape;
    a line is folded behind a backslash, and another one holds a space that comes next. Where the lines are indented to
    the greatest column or beyond, a line that is folded behind an escape is folded once more before a space, and then
    the two backslashes are read as one. -/

namespace Retag.Markup

open Text

/-- The points of a text, and what is written for them between double quotes with lines indented to a column. --/
inductive Doubles (n : Nat) : List Point → List Char → Prop where
  | nil : Doubles n [] []
  | char {x : Char} {points : List Point} {bs : List Char} (hx : Page.isEscaped x = false) (h : Doubles n points bs) :
      Doubles n (.char x :: points) (x :: bs)
  | escape {x : Point} {e : List Char} {points : List Point} {bs : List Char} (he : Page.written x = .inr e)
      (h : Doubles n points bs) : Doubles n (x :: points) (e ++ bs)
  | space {points : List Point} {bs : List Char} (h : Doubles n points bs) :
      Doubles n (.char ' ' :: points) ('\\' :: ' ' :: bs)
  | fold {points : List Point} {bs : List Char} (h : Doubles n points bs) (hbs : bs.head? ≠ some ' ') :
      Doubles n points ('\\' :: '\n' :: (List.replicate n ' ' ++ bs))

variable {n : Nat} {bs e tail : List Char} {points : List Point} {x y : Char} {c : Cursor} {fuel : Nat}

namespace Page

theorem isOrdinary_of_not_isEscaped (h : isEscaped x = false) : Style.isOrdinary x = true := by
  simp only [isEscaped, Bool.or_eq_false_iff, Bool.not_eq_false', beq_eq_false_iff_ne, ne_eq] at h
  obtain ⟨⟨⟨⟨-, -⟩, hmark⟩, -⟩, hrange⟩ := h
  simp only [Style.isOrdinary, Bool.or_eq_true, Bool.and_eq_true, decide_eq_true_eq, bne_iff_ne, ne_eq] at hrange ⊢
  omega

/-- What is written for a character as it is, is the character. --/
theorem written_eq_inl {x : Point} (h : written x = .inl y) : x = .char y ∧ isEscaped y = false := by
  cases x with
  | char c =>
    simp only [written] at h
    split at h
    · cases h
    · rename_i hc
      cases h
      exact ⟨rfl, by simpa using hc⟩
  | half n => cases h

/-- What is written as an escape is a character that has to be, or a half. --/
theorem written_eq_inr {x : Point} (h : written x = .inr e) :
    (∃ c, x = .char c ∧ isEscaped c = true ∧ e = escape c) ∨ ∃ n, x = .half n ∧ e = halfEscape n := by
  cases x with
  | char c =>
    simp only [written] at h
    split at h
    · rename_i hc
      cases h
      exact .inl ⟨c, rfl, hc, rfl⟩
    · cases h
  | half n =>
    cases h
    exact .inr ⟨n, rfl, rfl⟩

end Page

theorem not_isGap_of_not_isEscaped (h : Page.isEscaped x = false) (hs : x ≠ ' ') : isGap x = false :=
  isGap_of_isOrdinary (Page.isOrdinary_of_not_isEscaped h) (by
    simp only [Page.isEscaped, Bool.or_eq_false_iff] at h
    exact h.1.2) (by simpa using hs)

/-! ### Escapes -/

namespace Quoted

theorem escape?_of_escapeLetter? (h : Page.escapeLetter? x = some y) : escape? y = some x := by
  unfold Page.escapeLetter? at h
  split at h <;> cases h <;> rfl

theorem pointOf_toNat (x : Char) : pointOf x.toNat = .ok (.char x) := by
  have hvalid : x.toNat.isValidChar := x.valid
  rw [pointOf, if_pos hvalid, Char.ofNat_toNat]

theorem pointOf_number (n : Fin 0x800) : pointOf (Point.number n) = .ok (.half n) := by
  have hlt := n.isLt
  have hnot : ¬(Point.number n).isValidChar := by
    unfold Nat.isValidChar Point.number
    omega
  have hnumber : Point.number n < 0x110000 := by
    unfold Point.number
    omega
  rw [pointOf, if_neg hnot, if_pos hnumber, Point.number, Nat.add_sub_cancel_left, Fin.ofNat_val_eq_self]

/-- Behind the letter of a numeric escape stand the digits of a number. --/
theorem escape_of_digits {number : Nat} {z : Point} (width : Nat) (hx : escape? x = none)
    (hw : escapeWidth? x = some width) (hz : pointOf number = .ok z) (hlt : number < 16 ^ width)
    (hc : c.rest = x :: (hexDigits true width number ++ bs)) : escape c = .ok ([z], c.advance (width + 1)) := by
  have hrest : c.step.rest = hexDigits true width number ++ bs := by simp [hc]
  have hdigits : (c.step.rest.take width).takeWhile (fun d => (hexValue? d).isSome) = hexDigits true width number := by
    rw [hrest, List.take_left' (length_hexDigits ..)]
    exact List.takeWhile_eq_self_iff.mpr fun d hd => isSome_hexValue?_of_mem hd
  have hnumber : hexNumber? (hexDigits true width number) = some number := by
    rw [hexNumber?_hexDigits, Nat.mod_eq_of_lt hlt]
  simp only [escape, hc, hx, hw, hdigits, hnumber, length_hexDigits, beq_self_eq_true, hz, ok_bind, pure_eq_ok]
  rw [Cursor.step_eq_advance, Cursor.advance_advance, Nat.add_comm]

/-- The escape that is written for a half is read as the half. --/
theorem escape_of_half {m : Fin 0x800} (hc : c.rest = '\\' :: bs) (hbs : '\\' :: bs = Page.halfEscape m ++ tail) :
    escape c.step = .ok ([.half m], c.advance (Page.halfEscape m).length) := by
  have hrest : c.step.rest = bs := by simp [hc]
  unfold Page.halfEscape at hbs ⊢
  simp only [List.cons_append, List.cons.injEq, true_and] at hbs
  rw [hbs] at hrest
  have hlt : Point.number m < 16 ^ 4 := by
    have := m.isLt
    unfold Point.number
    omega
  have hadvance : c.step.advance (4 + 1) = c.advance (4 + 2) := by
    rw [Cursor.step_eq_advance, Cursor.advance_advance]
  simpa [length_hexDigits, hadvance] using escape_of_digits 4 rfl rfl (pointOf_number m) hlt hrest

/-- The escape that is written for a character is read as the character. --/
theorem escape_of_char (hc : c.rest = '\\' :: bs) (hbs : '\\' :: bs = Page.escape x ++ tail) :
    escape c.step = .ok ([.char x], c.advance (Page.escape x).length) := by
  have hrest : c.step.rest = bs := by simp [hc]
  unfold Page.escape at hbs ⊢
  cases hletter : Page.escapeLetter? x with
  | some y =>
    simp only [hletter, List.cons_append, List.nil_append, List.cons.injEq, true_and] at hbs ⊢
    rw [hbs] at hrest
    simp only [escape, hrest, escape?_of_escapeLetter? hletter]
    rfl
  | none =>
    simp only [hletter] at hbs ⊢
    have hadvance : ∀ k, c.step.advance (k + 1) = c.advance (k + 2) := fun k => by
      rw [Cursor.step_eq_advance, Cursor.advance_advance, Nat.add_comm 1]
    have hlt : x.toNat < 16 ^ 8 := Nat.lt_of_lt_of_le x.val.toNat_lt (by decide)
    split at hbs
    · rename_i h
      rw [if_pos h]
      simp only [List.cons_append, List.cons.injEq, true_and] at hbs
      rw [hbs] at hrest
      simpa [length_hexDigits, hadvance] using escape_of_digits 2 rfl rfl (pointOf_toNat x) h hrest
    · rename_i h
      rw [if_neg h]
      split at hbs
      · rename_i h'
        rw [if_pos h']
        simp only [List.cons_append, List.cons.injEq, true_and] at hbs
        rw [hbs] at hrest
        simpa [length_hexDigits, hadvance] using escape_of_digits 4 rfl rfl (pointOf_toNat x) h' hrest
      · rename_i h'
        rw [if_neg h']
        simp only [List.cons_append, List.cons.injEq, true_and] at hbs
        rw [hbs] at hrest
        simpa [length_hexDigits, hadvance] using escape_of_digits 8 rfl rfl (pointOf_toNat x) hlt hrest

/-- The escape that is written for a point is read as the point. --/
theorem escape_of {z : Point} (he : Page.written z = .inr e) (hc : c.rest = '\\' :: bs) (hbs : '\\' :: bs = e ++ tail) :
    escape c.step = .ok ([z], c.advance e.length) := by
  rcases Page.written_eq_inr he with ⟨x, rfl, -, rfl⟩ | ⟨m, rfl, rfl⟩
  · exact escape_of_char hc hbs
  · exact escape_of_half hc hbs

/-! ### Reading -/

/-- A backslash is read with the escape behind it. --/
theorem body_escape {piece : List Point} {j : Nat} (hc : c.rest = '\\' :: bs)
    (he : escape c.step = .ok (piece, c.advance j)) : body true (fuel + 1) c = andOn true fuel piece (c.advance j) := by
  rw [body]
  simp only [hc, andOn_eq, if_true, he, ok_bind]

/-- Any other character but a quote and a backslash stands for itself. --/
theorem body_word (hc : c.rest = x :: bs) (hx : isGap x = false) (hquote : x ≠ '"') (hslash : x ≠ '\\') :
    body true (fuel + 1) c = andOn true fuel [.char x] c.step := by
  rw [body]
  simp only [hc, andOn_eq]
  split
  · rename_i h
    cases h
  · rename_i h
    cases h
    rfl
  · rename_i h
    cases h
    rfl
  · rename_i h
    cases h
    exact absurd rfl hquote
  · rename_i h
    cases h
    exact absurd rfl hslash
  · rename_i h
    cases h
    rw [if_neg (by simp [hx])]

theorem body_close (hc : c.rest = '"' :: bs) : body true (fuel + 1) c = .ok ([], c.step) := by
  rw [body]
  simp only [hc]
  rfl

/-- A backslash at the end of a line passes the line end and the blanks behind it. --/
theorem escape_fold (hn : 0 < n) (hc : c.rest = '\\' :: '\n' :: (List.replicate n ' ' ++ bs))
    (hb : ∀ x, bs.head? = some x → isGap x = false) (hcut : c.cut = false) :
    escape c.step = .ok ([], c.advance (n + 2)) := by
  have hrest : c.step.rest = '\n' :: (List.replicate n ' ' ++ bs) := by simp [hc]
  have hbreak : c.step.lineBreak? = some ('\n', c.step.step) := Cursor.lineBreak?_of_cons hrest
  have hlines := @blankLines_breaks n bs [] c.step.step (c.step.step.rest.length + 1) nofun hn
    (by simp [hc]) hb
    (by simpa using hcut) (Nat.succ_pos _)
  simp only [escape, hrest, show escape? '\n' = none from rfl, show escapeWidth? '\n' = none from rfl, hbreak, hlines]
  rw [Cursor.step_eq_advance, Cursor.step_eq_advance, Cursor.advance_advance, Cursor.advance_advance, ok_bind]
  simp only [List.length_nil, Nat.zero_add, List.map_nil, pure_eq_ok]
  congr 3
  omega

end Quoted

theorem cons_escape (x : Char) : ∃ rest, Page.escape x = '\\' :: rest := by
  unfold Page.escape
  split
  · exact ⟨_, rfl⟩
  · dsimp only
    split
    · exact ⟨_, rfl⟩
    · split <;> exact ⟨_, rfl⟩

theorem cons_of_written {x : Point} (h : Page.written x = .inr e) : ∃ rest, e = '\\' :: rest := by
  rcases Page.written_eq_inr h with ⟨c, -, -, rfl⟩ | ⟨m, -, rfl⟩
  · exact cons_escape c
  · exact ⟨_, rfl⟩

/-- What is written starts with spaces, and behind them stands no blank. --/
theorem Doubles.blanks (h : Doubles n points bs) (tail : List Char) :
    ∃ k y rest, bs ++ '"' :: tail = List.replicate k ' ' ++ y :: rest ∧ isGap y = false := by
  induction h with
  | nil => exact ⟨0, '"', tail, rfl, by decide⟩
  | @char x points bs hx h ih =>
    by_cases hs : x = ' '
    · obtain ⟨k, y, rest, heq, hy⟩ := ih
      exact ⟨k + 1, y, rest, by rw [hs, List.cons_append, heq, List.replicate_succ, List.cons_append], hy⟩
    · exact ⟨0, x, _, rfl, not_isGap_of_not_isEscaped hx hs⟩
  | @escape x e points bs he h ih =>
    obtain ⟨rest, hrest⟩ := cons_of_written he
    exact ⟨0, '\\', rest ++ bs ++ '"' :: tail, by rw [hrest]; rfl, by decide⟩
  | space h ih => exact ⟨0, '\\', _, rfl, by decide⟩
  | fold h hbs ih => exact ⟨0, '\\', _, rfl, by decide⟩

theorem Doubles.head (h : Doubles n points bs) (hbs : bs.head? ≠ some ' ') (tail : List Char) :
    ∀ x, (bs ++ '"' :: tail).head? = some x → isGap x = false := by
  obtain ⟨k, y, rest, heq, hy⟩ := h.blanks tail
  intro x hx
  cases k with
  | zero =>
    rw [heq] at hx
    cases hx
    exact hy
  | succ k =>
    rw [List.replicate_succ, List.cons_append] at heq
    cases bs with
    | nil => cases heq
    | cons b bs =>
      obtain ⟨rfl, -⟩ := List.cons.inj heq
      exact absurd rfl hbs

namespace Quoted

theorem andOn_append {piece piece' : List Point} {c' : Cursor} :
    andOn true fuel (piece ++ piece') c' = (andOn true fuel piece' c').map fun r => (piece ++ r.1, r.2) := by
  unfold andOn
  cases body true fuel c' <;> simp [Except.map]

/-- A space is read with the blanks behind it, and not from the next position on; but what is read is the same. --/
theorem body_space {k : Nat} {rest : List Char} {c' : Cursor} (hc : c.rest = ' ' :: (List.replicate k ' ' ++ y :: rest))
    (hy : isGap y = false) (h : ∀ f, fuel ≤ f → body true f c.step = .ok (points, c')) :
    body true (fuel + 1) c = .ok (.char ' ' :: points, c') := by
  have hb : ∀ z, (y :: rest).head? = some z → isGap z = false := by
    rintro z ⟨⟩
    exact hy
  have hrest : c.step.rest = List.replicate k ' ' ++ y :: rest := by simp [hc]
  have hgap := gap_spaces (k := k) (hc.trans (by rw [List.replicate_succ]; rfl)) (by simp) hb
  rw [body_gap hc (by decide) hgap]
  cases k with
  | zero =>
    rw [andOn, ← Cursor.step_eq_advance, h fuel (Nat.le_refl _), map_ok]
    rfl
  | succ k =>
    have hgap' := gap_spaces (k := k) (c := c.step) hrest (by simp) hb
    have hnext := h (fuel + 1) (Nat.le_succ _)
    rw [body_gap (hrest.trans (by rw [List.replicate_succ]; rfl)) (by decide) hgap', Cursor.step_eq_advance,
      Cursor.advance_advance] at hnext
    rw [show List.replicate (k + 1 + 1) ' ' = [' '] ++ List.replicate (k + 1) ' ' from List.replicate_succ,
      List.map_append, andOn_append, Nat.add_comm (k + 1) 1, hnext, map_ok]
    rfl

/-- What was written between double quotes is read as the text. --/
theorem body_of_doubles (h : Doubles n points bs) (hn : 0 < n) (hc : c.rest = bs ++ '"' :: tail) (hcut : c.cut = false)
    (hf : bs.length < fuel) : body true fuel c = .ok (points, c.advance (bs.length + 1)) := by
  induction h generalizing c fuel with
  | nil =>
    obtain ⟨fuel, rfl⟩ := Nat.exists_eq_add_one_of_ne_zero (Nat.ne_zero_of_lt hf)
    exact body_close hc
  | @char x points bs hx h ih =>
    obtain ⟨fuel, rfl⟩ := Nat.exists_eq_add_one_of_ne_zero (Nat.ne_zero_of_lt hf)
    rw [List.length_cons] at hf
    have hrest : c.step.rest = bs ++ '"' :: tail := by simp [hc]
    have hcut' : c.step.cut = false := by simpa using hcut
    have hadvance : c.step.advance (bs.length + 1) = c.advance ((x :: bs).length + 1) := by
      rw [Cursor.step_eq_advance, Cursor.advance_advance, List.length_cons, Nat.add_comm 1]
    -- A space is read with all blanks behind it at once, while the induction goes on from the next character.
    by_cases hs : x = ' '
    · subst hs
      obtain ⟨k, y, rest, heq, hy⟩ := h.blanks tail
      rw [List.cons_append, heq] at hc
      refine body_space hc hy fun f hlt => ?_
      rw [ih hrest hcut' (by omega), hadvance]
    · have hquote : x ≠ '"' := by
        rintro rfl
        cases hx
      have hslash : x ≠ '\\' := by
        rintro rfl
        cases hx
      rw [body_word hc (not_isGap_of_not_isEscaped hx hs) hquote hslash, andOn, ih hrest hcut' (by omega), map_ok, hadvance]
      rfl
  | @escape x e points bs he h ih =>
    obtain ⟨fuel, rfl⟩ := Nat.exists_eq_add_one_of_ne_zero (Nat.ne_zero_of_lt hf)
    obtain ⟨rest, hrest⟩ := cons_of_written he
    have hpos : 0 < e.length := by simp [hrest]
    rw [List.length_append] at hf
    have hslash : c.rest = '\\' :: (rest ++ (bs ++ '"' :: tail)) := by simp [hc, hrest]
    have hescape : escape c.step = .ok ([x], c.advance e.length) := escape_of he hslash (by rw [hrest]; rfl)
    rw [body_escape hslash hescape, andOn, ih (by simp [hc]) (by simpa using hcut) (by omega)]
    simp only [map_ok, List.singleton_append, Cursor.advance_advance, List.length_append]
    rfl
  | @space points bs h ih =>
    obtain ⟨fuel, rfl⟩ := Nat.exists_eq_add_one_of_ne_zero (Nat.ne_zero_of_lt hf)
    simp only [List.length_cons] at hf
    have hescape : escape c.step = .ok ([.char ' '], c.advance 2) := by
      have hrest : c.step.rest = ' ' :: (bs ++ '"' :: tail) := by simp [hc]
      simp only [escape, hrest]
      rfl
    rw [body_escape hc hescape, andOn, ih (by simp [hc]) (by simpa using hcut) (by omega)]
    simp only [map_ok, List.singleton_append, Cursor.advance_advance, List.length_cons]
    congr 3
    omega
  | @fold points bs h hbs ih =>
    obtain ⟨fuel, rfl⟩ := Nat.exists_eq_add_one_of_ne_zero (Nat.ne_zero_of_lt hf)
    simp only [List.length_cons, List.length_append, List.length_replicate] at hf
    simp only [List.cons_append, List.append_assoc] at hc
    -- The backslash, the line end and the blanks after it are read as one escape that stands for nothing.
    rw [body_escape hc (escape_fold hn hc (h.head hbs tail) hcut), andOn,
      ih (by simp [hc]) (by simpa using hcut) (by omega)]
    simp only [map_ok, List.nil_append, Cursor.advance_advance, List.length_cons, List.length_append,
      List.length_replicate]
    congr 3
    omega

/-- A text between double quotes is read as the text, from its first quote on. --/
theorem scan_of_doubles (h : Doubles n points bs) (hn : 0 < n) (hc : c.rest = '"' :: (bs ++ '"' :: tail))
    (hcut : c.cut = false) : scan true c = .ok (.ofPoints points, c.advance (bs.length + 2)) := by
  have hlen : bs.length < c.rest.length := by
    rw [hc, List.length_cons, List.length_append]
    omega
  unfold scan
  have hrest : c.step.rest = bs ++ '"' :: tail := by simp [hc]
  rw [body_of_doubles h hn hrest (by simpa using hcut) hlen, Cursor.step_eq_advance, Cursor.advance_advance, ok_bind,
    Nat.add_comm 1]
  rfl

end Quoted

/-! ### Writing -/

/-- What is written starts with a space only if the text does. --/
theorem Doubles.head?_ne (h : Doubles n points bs) (hpoints : points.head? ≠ some (.char ' ')) :
    bs.head? ≠ some ' ' := by
  cases h with
  | nil => nofun
  | char _ _ => simpa using hpoints
  | escape he _ =>
    obtain ⟨rest, hrest⟩ := cons_of_written he
    simp [hrest]
  | space _ => simp
  | fold _ _ => simp

namespace Page

/-- A text between double quotes as it stands on one line. --/
def doubled (points : List Point) : List Char :=
  points.flatMap fun x => (written x).elim (fun c => [c]) id

theorem isInline_of_mem_escape (x : Char) : ∀ y ∈ escape x, isInline y = true := by
  have hdigits : ∀ letter width, isInline letter = true →
      ∀ y ∈ '\\' :: letter :: hexDigits true width x.toNat, isInline y = true := by
    intro letter width hletter y hy
    simp only [List.mem_cons] at hy
    rcases hy with rfl | rfl | hy
    · decide
    · exact hletter
    · exact forall_mem_hexDigits (P := fun y => isInline y = true) (by decide) hy
  unfold escape
  split
  · rename_i y hy
    unfold escapeLetter? at hy
    refine List.all_eq_true.mp ?_
    split at hy <;> cases hy <;> decide
  · dsimp only
    split
    · exact hdigits _ _ rfl
    · split
      · exact hdigits _ _ rfl
      · exact hdigits _ _ rfl

theorem isInline_of_mem_halfEscape (m : Fin 0x800) : ∀ y ∈ halfEscape m, isInline y = true := by
  intro y hy
  simp only [halfEscape, List.mem_cons] at hy
  rcases hy with rfl | rfl | hy
  · decide
  · decide
  · exact forall_mem_hexDigits (P := fun y => isInline y = true) (by decide) hy

theorem isInline_of_mem_doubled (h : y ∈ doubled points) : isInline y = true := by
  obtain ⟨x, -, hy⟩ := List.mem_flatMap.mp h
  cases hx : written x with
  | inr e =>
    rw [hx] at hy
    rcases written_eq_inr hx with ⟨c, -, -, rfl⟩ | ⟨m, -, rfl⟩
    · exact isInline_of_mem_escape c y hy
    · exact isInline_of_mem_halfEscape m y hy
  | inl c =>
    rw [hx] at hy
    obtain rfl := List.mem_singleton.mp hy
    have hc := (written_eq_inl hx).2
    simp only [isEscaped, Bool.or_eq_false_iff] at hc
    obtain ⟨⟨⟨-, hmark⟩, hbreak⟩, -⟩ := hc
    simp only [isInline, hbreak, Bool.not_false, Bool.true_and, bne_iff_ne, ne_eq]
    rintro rfl
    cases hmark

/-- Whether a text has, behind its first character, an escaped one with a space behind it that is not the last. --/
def foldsTwice (points : List Point) : Bool :=
  Style.hasNeighbours (fun x => (written x).isRight) (· == .char ' ') points.tail.dropLast

variable {p q : Page} {split first held : Bool} {pending : List Char} {rest : List Point} {z : Point}

/-- The backslash that holds a space, if it is written already. --/
def slash (held : Bool) : List Char :=
  if held then ['\\'] else []

theorem wrote_fold (hp : p.indenting = false) (n : Nat) (next : Option Char) : Wrote p (p.fold n next)
    ('\\' :: '\n' :: (List.replicate n ' ' ++ slash (decide (next = some ' '))))
    (n + (slash (decide (next = some ' '))).length) false false := by
  have hslash := wrote_write p ['\\']
  have hline := hslash.trans (wrote_indent_of_text (n := n) (hslash.indenting.trans hp))
  have htext : Wrote p ((p.write ['\\']).indent n).inText ('\\' :: '\n' :: List.replicate n ' ') n false false :=
    ⟨hline.reversed, hline.column, rfl, rfl⟩
  unfold fold slash
  by_cases hnext : next = some ' '
  · have := htext.trans (wrote_write _ ['\\'])
    rw [htext.column, htext.afterBlank, htext.indenting] at this
    simpa [hnext] using this
  · simpa [hnext] using htext

/-- From one page to another what is left of a text was written between double quotes, and before it what is pending;
    `held` says whether the backslash that holds the first space is written already. Without splitting the text stays on
    its line. --/
def WroteDoubles (n : Nat) (split : Bool) (p q : Page) (held : Bool) (pending : List Char) (points : List Point) : Prop :=
  ∃ body column a, Doubles n points (slash held ++ body) ∧ Wrote p q (pending.reverse ++ body) column a false ∧
    (split = false → body = doubled points ∧ column = p.column + (pending.length + body.length))

theorem wrote_pending (p : Page) (pending : List Char) :
    Wrote p (p.write pending.reverse) pending.reverse (p.column + pending.length) p.afterBlank p.indenting := by
  have h := wrote_write p pending.reverse
  rwa [List.length_reverse] at h

theorem wrote_escape (p : Page) (pending e : List Char) : Wrote p ((p.write pending.reverse).write e)
    (pending.reverse ++ e) (p.column + pending.length + e.length) p.afterBlank p.indenting := by
  have hpending := wrote_pending p pending
  have h := hpending.trans (wrote_write _ e)
  rwa [hpending.column, hpending.afterBlank, hpending.indenting] at h

theorem WroteDoubles.nil (hp : p.indenting = false) : WroteDoubles n split p (p.write pending.reverse) false pending [] := by
  have h := wrote_pending p pending
  rw [hp] at h
  exact ⟨[], _, _, .nil, by simpa using h, fun _ => ⟨rfl, rfl⟩⟩

theorem WroteDoubles.escape (he : written z = .inr e)
    (h : WroteDoubles n split ((p.write pending.reverse).write e) q false [] rest) :
    WroteDoubles n split p q false pending (z :: rest) := by
  obtain ⟨body, column, a, hdoubles, hwrote, hone⟩ := h
  have hescape := wrote_escape p pending e
  have hdoubles' : Doubles n (z :: rest) (e ++ body) := .escape he hdoubles
  refine ⟨e ++ body, column, a, hdoubles', by simpa using hescape.trans hwrote, fun h => ?_⟩
  obtain ⟨rfl, hcolumn⟩ := hone h
  refine ⟨by simp [doubled, he], ?_⟩
  rw [hcolumn, hescape.column]
  simp only [List.length_nil, List.length_append]
  omega

/-- A space that comes next is the next point. --/
theorem head?_eq_space_iff : rest.head?.bind Point.char? = some ' ' ↔ rest.head? = some (.char ' ') := by
  cases rest with
  | nil => simp
  | cons x rest => cases x <;> simp [Point.char?]

/-- Behind an escape a line is folded; a space that comes next is held. --/
theorem WroteDoubles.escape_fold (he : written z = .inr e) (hp : p.indenting = false) (hsplit : split = true)
    (h : WroteDoubles n split (((p.write pending.reverse).write e).fold n (rest.head?.bind Point.char?)) q
      (decide (rest.head?.bind Point.char? = some ' ')) [] rest) : WroteDoubles n split p q false pending (z :: rest) := by
  obtain ⟨body, column, a, hdoubles, hwrote, -⟩ := h
  have hescape := wrote_escape p pending e
  have hline := hescape.trans (wrote_fold (hescape.indenting.trans hp) n (rest.head?.bind Point.char?))
  have hheld : (slash (decide (rest.head?.bind Point.char? = some ' ')) ++ body).head? ≠ some ' ' := by
    by_cases hspace : rest.head?.bind Point.char? = some ' '
    · simp [slash, hspace]
    · rw [slash, if_neg (by simpa using hspace), List.nil_append] at hdoubles ⊢
      exact hdoubles.head?_ne (mt head?_eq_space_iff.mpr hspace)
  have hdoubles' := Doubles.escape he (.fold hdoubles hheld)
  refine ⟨_, column, a, hdoubles', by simpa using hline.trans hwrote, fun h => ?_⟩
  rw [hsplit] at h
  cases h

/-- A line is folded before a character that stands for itself, which is held if it is a space. --/
theorem WroteDoubles.fold (hx : isEscaped x = false) (hp : p.indenting = false) (hsplit : split = true)
    (h : WroteDoubles n split ((p.write pending.reverse).fold n (some x)) q false [x] rest) :
    WroteDoubles n split p q false pending (.char x :: rest) := by
  obtain ⟨body, column, a, hdoubles, hwrote, -⟩ := h
  have hpending := wrote_pending p pending
  have hline := hpending.trans (wrote_fold (hpending.indenting.trans hp) n (some x))
  refine ⟨'\\' :: '\n' :: (List.replicate n ' ' ++ (slash (decide (some x = some ' ')) ++ x :: body)), column, a, ?_,
    by simpa using hline.trans hwrote, fun h => ?_⟩
  · by_cases hspace : x = ' '
    · subst hspace
      exact .fold (.space hdoubles) (by simp [slash])
    · have hnone : slash (decide (some x = some ' ')) = [] := if_neg (by simpa using hspace)
      rw [hnone]
      exact .fold (.char hx hdoubles) (by simpa using hspace)
  · rw [hsplit] at h
    cases h

/-- A character that stands for itself is passed. --/
theorem WroteDoubles.pass (hx : isEscaped x = false) (hheld : held = true → x = ' ')
    (h : WroteDoubles n split p q false (x :: pending) rest) :
    WroteDoubles n split p q held pending (.char x :: rest) := by
  obtain ⟨body, column, a, hdoubles, hwrote, hone⟩ := h
  refine ⟨x :: body, column, a, ?_, by simpa using hwrote, fun h => ?_⟩
  · cases held with
    | false => exact .char hx hdoubles
    | true =>
      obtain rfl := hheld rfl
      exact .space hdoubles
  · obtain ⟨rfl, hcolumn⟩ := hone h
    refine ⟨by simp [doubled, written, hx], ?_⟩
    rw [hcolumn]
    simp only [List.length_cons]
    omega

/-- A text has no escaped point with a space behind it that is not the last, or its lines are not indented so far
    that this does harm. --/
def FoldsOnce (n : Nat) (points : List Point) : Prop :=
  n < width ∨ Style.hasNeighbours (fun x => (written x).isRight) (· == .char ' ') points.dropLast = false

theorem FoldsOnce.of_cons (h : FoldsOnce n (z :: rest)) : FoldsOnce n rest := by
  refine h.imp_right fun h => ?_
  cases rest with
  | nil => rfl
  | cons y rest =>
    rw [List.dropLast_cons_of_ne_nil (List.cons_ne_nil y rest)] at h
    exact @Style.hasNeighbours_of_append _ _ _ [z] _ h

/-- If a space comes behind an escape, there is room for its backslash, or nothing comes behind the space. --/
theorem FoldsOnce.room (h : FoldsOnce n (z :: rest)) (he : written z = .inr e) (hrest : rest.head? = some (.char ' ')) :
    n + 1 ≤ width ∨ rest.length ≤ 1 := by
  refine h.imp id fun h => ?_
  obtain _ | ⟨y, _ | ⟨z', rest⟩⟩ := rest
  · cases hrest
  · exact Nat.le_refl _
  · cases hrest
    simp [Style.hasNeighbours, he] at h

/-- A line is folded behind an escape only where it is beyond the greatest column and there is more to come. --/
theorem doubleBody_escape (he : written z = .inr e) :
    (doubleBody p n split first pending (z :: rest) =
      doubleBody ((p.write pending.reverse).write e) n split false [] rest) ∨
    (split = true ∧ first = false ∧ doubleBody p n split first pending (z :: rest) =
      doubleBody (((p.write pending.reverse).write e).fold n (rest.head?.bind Point.char?)) n split false [] rest) := by
  rw [doubleBody]
  simp only [he]
  split
  · rename_i h
    simp only [Bool.and_eq_true, Bool.not_eq_true'] at h
    exact .inr ⟨h.1.1.1, h.1.1.2, rfl⟩
  · exact .inl rfl

/-- It is folded before another character only where that character would be beyond it. --/
theorem doubleBody_word (hx : written z = .inl x) :
    (doubleBody p n split first pending (z :: rest) = doubleBody p n split false (x :: pending) rest) ∨
    (split = true ∧ rest ≠ [] ∧ width < p.column + pending.length ∧
      doubleBody p n split first pending (z :: rest) =
        doubleBody ((p.write pending.reverse).fold n (some x)) n split false [x] rest) := by
  rw [doubleBody]
  simp only [hx]
  split
  · rename_i h
    simp only [Bool.and_eq_true, Bool.not_eq_true', List.isEmpty_eq_false_iff, decide_eq_true_eq] at h
    exact .inr ⟨h.1.1.1.1, h.1.1.2, h.2, rfl⟩
  · exact .inl rfl

/-- What is left of a text that is not folded twice is written between double quotes. --/
theorem wrote_doubleBody (hp : p.indenting = false)
    (hheld : held = true →
      pending = [] ∧ points.head? = some (.char ' ') ∧ (p.column ≤ width ∨ points.length ≤ 1))
    (hsplit : split = true → FoldsOnce n (if first then points.tail else points)) :
    WroteDoubles n split p (doubleBody p n split first pending points) held pending points := by
  induction points generalizing p first held pending with
  | nil =>
    cases held with
    | false => exact .nil hp
    | true => cases (hheld rfl).2.1
  | cons z rest ih =>
    have hrest : split = true → FoldsOnce n rest := fun h => by
      have := hsplit h
      cases first with
      | true => exact this
      | false => exact FoldsOnce.of_cons this
    cases hz : written z with
    | inr e =>
      have hnot : held = false := by
        cases held with
        | false => rfl
        | true =>
          obtain ⟨-, hspace, -⟩ := hheld rfl
          cases hspace
          cases hz
      have hindenting := (wrote_escape p pending e).indenting.trans hp
      rw [hnot]
      rcases @doubleBody_escape n e p split first pending rest z hz with heq | ⟨hs, rfl, heq⟩
      · rw [heq]
        exact .escape hz (ih hindenting nofun hrest)
      · have hline := wrote_fold hindenting n (rest.head?.bind Point.char?)
        rw [heq]
        refine .escape_fold hz hp hs (ih hline.indenting (fun h => ?_) hrest)
        have hspace := head?_eq_space_iff.mp (of_decide_eq_true h)
        rw [hline.column, h]
        exact ⟨rfl, hspace, FoldsOnce.room (hsplit hs) hz hspace⟩
    | inl x =>
      obtain ⟨rfl, hx⟩ := written_eq_inl hz
      have hspace : held = true → x = ' ' := fun h => Point.char.inj (Option.some.inj (hheld h).2.1)
      rcases @doubleBody_word n x p split first pending rest _ hz with heq | ⟨hs, hne, hwide, heq⟩
      · rw [heq]
        exact .pass hx hspace (ih hp nofun hrest)
      · -- A space that is held is not folded again.
        have hnot : held = false := by
          cases held with
          | false => rfl
          | true =>
            obtain ⟨rfl, -, hcolumn | hlast⟩ := hheld rfl
            · rw [List.length_nil] at hwide
              omega
            · have := List.length_pos_iff.mpr hne
              rw [List.length_cons] at hlast
              omega
        have hpending := wrote_pending p pending
        rw [heq, hnot]
        exact .fold hx hp hs (ih (wrote_fold (hpending.indenting.trans hp) n (some x)).indenting nofun hrest)

/-- A text that is not folded twice is written between double quotes. --/
theorem wrote_double (split : Bool) (p : Page) (hsplit : split = true → n < width ∨ foldsTwice points = false) :
    ∃ body column, Doubles n points body ∧
      Wrote p (double p n split points) (p.lead ++ '"' :: (body ++ ['"'])) column false false ∧
      (split = false → body = doubled points ∧ column = p.column + p.lead.length + (body.length + 2)) := by
  have hmark := wrote_mark p ['"']
  obtain ⟨body, column, a, hdoubles, hwrote, hone⟩ := @wrote_doubleBody n points (p.mark ['"']) split true false []
    hmark.indenting nofun hsplit
  have hclose := wrote_closeMark (doubleBody (p.mark ['"']) n split true [] points) ['"']
  rw [hwrote.column] at hclose
  refine ⟨body, column + 1, hdoubles, ?_, fun h => ?_⟩
  · unfold double
    simpa only [List.append_assoc, List.cons_append, List.nil_append, List.reverse_nil, List.length_cons, List.length_nil,
      Nat.zero_add] using (hmark.trans hwrote).trans hclose
  · obtain ⟨hbody, hcolumn⟩ := hone h
    refine ⟨hbody, ?_⟩
    rw [hcolumn, hmark.column]
    simp only [List.length_append, List.length_cons, List.length_nil]
    omega

end Page

end Retag.Markup

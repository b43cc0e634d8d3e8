import Retag.Proofs.Markup.Token.Plain
import Retag.Markup.Token.Flow

/-! Scalars between single quotes, written and read. Quotes are doubled, some single spaces are replaced by the start
    of a new line, and a row of line ends is written with its first line feed twice. -/

namespace Retag.Markup

/-- A row of line ends that reading leaves as it is. --/
structure IsBreaks (r : List Char) : Prop where
  ne_nil : r ≠ []
  all : ∀ x ∈ r, isBreak x = true ∧ x ≠ '\x85'

/-- A row of line ends as it is written: a line feed in front is written twice. --/
def doubledBreaks (r : List Char) : List Char :=
  if r.head? = some '\n' then '\n' :: r else r

/-- A text, and what is written for it between single quotes with lines indented to a column. --/
inductive Singles (n : Nat) : List Char → List Char → Prop where
  | nil : Singles n [] []
  | char {x : Char} {cs bs : List Char} (hx : isInline x = true ∧ isGap x = false) (hq : x ≠ '\'')
      (h : Singles n cs bs) : Singles n (x :: cs) (x :: bs)
  | quote {cs bs : List Char} (h : Singles n cs bs) : Singles n ('\'' :: cs) ('\'' :: '\'' :: bs)
  | spaces {cs bs : List Char} (k : Nat) (h : Singles n cs bs) (hcs : ∀ x, cs.head? = some x → isGap x = false) :
      Singles n (List.replicate (k + 1) ' ' ++ cs) (List.replicate (k + 1) ' ' ++ bs)
  | fold {cs bs : List Char} (h : Singles n cs bs) (hcs : ∀ x, cs.head? = some x → isGap x = false) :
      Singles n (' ' :: cs) ('\n' :: (List.replicate n ' ' ++ bs))
  | breaks {r cs bs : List Char} (hr : IsBreaks r) (h : Singles n cs bs)
      (hcs : ∀ x, cs.head? = some x → isGap x = false) :
      Singles n (r ++ cs) (doubledBreaks r ++ (List.replicate n ' ' ++ bs))

variable {n k : Nat} {cs bs tail r : List Char} {x : Char}

/-- What is written starts with a blank only if the text does. --/
theorem Singles.head (h : Singles n cs bs) (hcs : ∀ x, cs.head? = some x → isGap x = false) :
    ∀ x, (bs ++ '\'' :: tail).head? = some x → isGap x = false := by
  intro x hx
  cases h with
  | nil =>
    cases hx
    decide
  | char hy _ _ =>
    cases hx
    exact hy.2
  | quote _ =>
    cases hx
    decide
  | spaces k h _ =>
    have := hcs ' ' (by rw [List.replicate_succ]; rfl)
    cases this
  | fold _ _ =>
    have := hcs ' ' rfl
    cases this
  | @breaks r _ _ hr _ _ =>
    cases r with
    | nil => exact absurd rfl hr.ne_nil
    | cons y r =>
      have := (hr.all y List.mem_cons_self).1
      rw [isBreak_of_not_isGap (hcs y rfl)] at this
      cases this

/-! ### Reading -/

theorem atSeparator_of_isBreak (hx : isBreak x = true) : atSeparator (x :: bs) = false := by
  rcases isBreak_cases hx with rfl | rfl | rfl | rfl <;> rfl

namespace Quoted

variable {c : Cursor} {fuel : Nat}

/-- Blank lines and the spaces behind them are passed; they make their own breaks. --/
theorem blankLines_breaks (hr : ∀ x ∈ r, isBreak x = true ∧ x ≠ '\x85') (hn : 0 < n)
    (hc : c.rest = r ++ (List.replicate n ' ' ++ bs)) (hb : ∀ x, bs.head? = some x → isGap x = false)
    (hcut : c.cut = false) (hf : r.length < fuel) : blankLines fuel c = .ok (r, c.advance (r.length + n)) := by
  have hskipped : ∀ {c : Cursor} {m : Nat}, c.rest = List.replicate m ' ' ++ bs → c.skip isSpace = c.advance m :=
    fun {c m} hc => by
      have := Cursor.skip_of (p := isSpace) hc (fun x hx => by rw [List.eq_of_mem_replicate hx]; rfl)
        fun x hx => isSpace_of_not_isGap (hb x hx)
      rwa [List.length_replicate] at this
  induction r generalizing c fuel with
  | nil =>
    obtain ⟨fuel, rfl⟩ := Nat.exists_eq_add_one_of_ne_zero (Nat.ne_zero_of_lt hf)
    rw [List.nil_append] at hc
    have hbreak : (c.advance n).lineBreak? = none := Cursor.lineBreak?_eq_none fun x hx => by
      rw [Cursor.rest_advance, hc, List.drop_left' List.length_replicate] at hx
      exact isBreak_of_not_isGap (hb x hx)
    simp [blankLines, Cursor.separates_of_complete hcut, hc, atSeparator_spaces hn, hskipped hc, hbreak]
  | cons y r ih =>
    obtain ⟨fuel, rfl⟩ := Nat.exists_eq_add_one_of_ne_zero (Nat.ne_zero_of_lt hf)
    obtain ⟨hy, hny⟩ := hr y List.mem_cons_self
    have hsep : atSeparator c.rest = false := by
      rw [hc]
      exact atSeparator_of_isBreak hy
    have hskip : c.skip isSpace = c := Cursor.skip_none fun x hx => by
      rw [hc] at hx
      cases hx
      exact isSpace_of_isBreak hy
    have hbreak : c.lineBreak? = some (y, c.step) := by simp [Cursor.lineBreak?, hc, hy, breakOf_of_ne hy hny]
    have hih := ih (fun x hx => hr x (List.mem_cons_of_mem _ hx)) (c := c.step) (by simp [hc]) (by simpa using hcut)
      (Nat.lt_of_succ_lt_succ hf)
    simp only [blankLines, Cursor.separates_of_complete hcut, ok_bind, hsep, hskip, hbreak, hih, Bool.false_eq_true,
      if_false, pure_eq_ok]
    rw [Cursor.step_eq_advance, Cursor.advance_advance, List.length_cons]
    congr 3
    omega

theorem gap_of_break {y : Char} (hy : isBreak y = true) (hc : c.rest = y :: bs) :
    gap c = (blankLines (bs.length + 1) c.step).map fun r =>
      ((if breakOf y ≠ '\n' then [breakOf y] else if r.1.isEmpty then [' '] else []) ++ r.1, r.2) := by
  have hskip : c.skip isSpace = c := Cursor.skip_none fun x hx => by
    rw [hc] at hx
    cases hx
    exact isSpace_of_isBreak hy
  have hlb : c.lineBreak? = some (breakOf y, c.step) := by simp [Cursor.lineBreak?, hc, hy]
  have hrest : c.step.rest = bs := by simp [hc]
  simp only [gap, hskip, hc, hlb, hrest]
  cases blankLines (bs.length + 1) c.step <;> rfl

/-- A single line end between words stands for a space. --/
theorem gap_fold (hn : 0 < n) (hc : c.rest = '\n' :: (List.replicate n ' ' ++ bs))
    (hb : ∀ x, bs.head? = some x → isGap x = false) (hcut : c.cut = false) :
    gap c = .ok ([' '], c.advance (n + 1)) := by
  rw [gap_of_break (by decide) hc, blankLines_breaks (r := []) (by simp) hn (by simp [hc]) hb (by simpa using hcut)
    (Nat.succ_pos _)]
  simp [breakOf, Cursor.step_eq_advance, Nat.add_comm]

/-- Line ends written with the first line feed twice stand for themselves. --/
theorem gap_breaks (hr : IsBreaks r) (hn : 0 < n) (hc : c.rest = doubledBreaks r ++ (List.replicate n ' ' ++ bs))
    (hb : ∀ x, bs.head? = some x → isGap x = false) (hcut : c.cut = false) :
    gap c = .ok (r, c.advance ((doubledBreaks r).length + n)) := by
  by_cases hnl : r.head? = some '\n'
  · have hd : doubledBreaks r = '\n' :: r := by simp [doubledBreaks, hnl]
    rw [hd, List.cons_append] at hc
    rw [gap_of_break (by decide) hc, blankLines_breaks hr.all hn (by simp [hc]) hb (by simpa using hcut)
      (by simp only [List.length_append]; omega)]
    have hne : r.isEmpty = false := by simpa using hr.ne_nil
    simp only [map_ok, breakOf, hne, hd, Cursor.step_eq_advance, Cursor.advance_advance, List.length_cons]
    congr 3
    omega
  · have hd : doubledBreaks r = r := by simp [doubledBreaks, hnl]
    rw [hd] at hc
    cases r with
    | nil => exact absurd rfl hr.ne_nil
    | cons y r =>
      obtain ⟨hy, hny⟩ := hr.all y List.mem_cons_self
      have hyn : y ≠ '\n' := fun h => hnl (by rw [h]; rfl)
      rw [List.cons_append] at hc
      rw [gap_of_break hy hc, blankLines_breaks (fun x hx => hr.all x (List.mem_cons_of_mem _ hx)) hn (by simp [hc]) hb
        (by simpa using hcut) (by simp only [List.length_append]; omega)]
      simp only [map_ok, breakOf_of_ne hy hny, hyn, ne_eq, not_false_iff, if_true, hd, Cursor.step_eq_advance, Cursor.advance_advance,
        List.length_cons, List.singleton_append]
      congr 3
      omega

theorem gap_spaces (hc : c.rest = List.replicate (k + 1) ' ' ++ bs) (hne : bs ≠ [])
    (hb : ∀ x, bs.head? = some x → isGap x = false) :
    gap c = .ok (List.replicate (k + 1) ' ', c.advance (k + 1)) := by
  have hspaces : ∀ x ∈ List.replicate (k + 1) ' ', isSpace x = true := fun x hx => by
    rw [List.eq_of_mem_replicate hx]
    rfl
  have hskip := Cursor.skip_of hc hspaces fun x hx => isSpace_of_not_isGap (hb x hx)
  have htake : c.rest.takeWhile isSpace = List.replicate (k + 1) ' ' := by
    rw [hc]
    exact takeWhile_append_of hspaces fun x hx => isSpace_of_not_isGap (hb x hx)
  have hrest : (c.advance (k + 1)).rest = bs := by simp [hc]
  have hbreak : (c.advance (k + 1)).lineBreak? = none := Cursor.lineBreak?_eq_none fun x hx => by
    rw [hrest] at hx
    exact isBreak_of_not_isGap (hb x hx)
  rw [List.length_replicate] at hskip
  simp only [gap, hskip, htake, hrest, hbreak]

/-- Reading on behind a piece that was read. --/
def andOn (double : Bool) (fuel : Nat) (piece : List Text.Point) (c : Cursor) :
    Except Fault (List Text.Point × Cursor) :=
  (body double fuel c).map fun r => (piece ++ r.1, r.2)

theorem andOn_eq {double : Bool} {piece : List Text.Point} : (do
    let (text, c) ← body double fuel c
    return (piece ++ text, c)) = andOn double fuel piece c := by
  unfold andOn
  cases body double fuel c <;> rfl

/-- A blank is read with the blanks behind it. --/
theorem body_gap {double : Bool} {piece : List Char} {j : Nat} (hc : c.rest = x :: bs) (hx : isGap x = true)
    (hg : gap c = .ok (piece, c.advance j)) :
    body double (fuel + 1) c = andOn double fuel (piece.map .char) (c.advance j) := by
  rw [body]
  simp only [hc, andOn_eq]
  split
  · rename_i h
    cases h
  · rename_i h
    cases h
    cases hx
  · rename_i h
    cases h
    cases hx
  · rename_i h
    cases h
    cases hx
  · rename_i h
    cases h
    cases hx
  · rename_i h
    cases h
    rw [if_pos hx, hg]
    rfl

/-- Any other character but a quote stands for itself between single quotes. --/
theorem body_char (hc : c.rest = x :: bs) (hx : isGap x = false) (hq : x ≠ '\'') :
    body false (fuel + 1) c = andOn false fuel [.char x] c.step := by
  rw [body]
  simp only [hc, andOn_eq]
  split
  · rename_i h
    cases h
  · rename_i h
    cases h
    exact absurd rfl hq
  · rename_i h
    cases h
    exact absurd rfl hq
  · rename_i h
    cases h
    rfl
  · rename_i h
    cases h
    rfl
  · rename_i h
    cases h
    rw [if_neg (by simp [hx])]

theorem body_quotes (hc : c.rest = '\'' :: '\'' :: bs) :
    body false (fuel + 1) c = andOn false fuel [.char '\''] (c.advance 2) := by
  rw [body]
  simp only [hc, andOn_eq]
  rfl

theorem body_end (hc : c.rest = '\'' :: bs) (hb : bs.head? ≠ some '\'') :
    body false (fuel + 1) c = .ok ([], c.step) := by
  rw [body]
  simp only [hc]
  split
  · rename_i h
    cases h
  · rename_i h
    cases h
    exact absurd rfl hb
  · rfl
  · rename_i h
    cases h
  · rename_i h
    cases h
  · rename_i h h1 _ _ heq
    cases heq
    exact absurd rfl h1

/-- What was written between single quotes is read as the text. --/
theorem body_of_singles (h : Singles n cs bs) (hn : 0 < n) (hc : c.rest = bs ++ '\'' :: tail)
    (ht : tail.head? ≠ some '\'') (hcut : c.cut = false) (hf : bs.length < fuel) :
    body false fuel c = .ok (cs.map .char, c.advance (bs.length + 1)) := by
  induction h generalizing c fuel with
  | nil =>
    obtain ⟨fuel, rfl⟩ := Nat.exists_eq_add_one_of_ne_zero (Nat.ne_zero_of_lt hf)
    exact body_end hc ht
  | @char x cs bs hx hq h ih =>
    obtain ⟨fuel, rfl⟩ := Nat.exists_eq_add_one_of_ne_zero (Nat.ne_zero_of_lt hf)
    rw [List.length_cons] at hf
    rw [body_char hc hx.2 hq, andOn, ih (by simp [hc]) (by simpa using hcut) (by omega)]
    simp only [map_ok, List.map_cons, List.singleton_append, List.length_cons, Cursor.step_eq_advance,
      Cursor.advance_advance]
    congr 3
    omega
  | @quote cs bs h ih =>
    obtain ⟨fuel, rfl⟩ := Nat.exists_eq_add_one_of_ne_zero (Nat.ne_zero_of_lt hf)
    simp only [List.length_cons] at hf
    rw [body_quotes hc, andOn, ih (by simp [hc]) (by simpa using hcut) (by omega)]
    simp only [map_ok, List.map_cons, List.singleton_append, List.length_cons, Cursor.advance_advance]
    congr 3
    omega
  | @spaces cs bs k h hcs ih =>
    obtain ⟨fuel, rfl⟩ := Nat.exists_eq_add_one_of_ne_zero (Nat.ne_zero_of_lt hf)
    simp only [List.length_append, List.length_replicate] at hf
    rw [List.append_assoc] at hc
    rw [body_gap (hc.trans (by rw [List.replicate_succ]; rfl)) (by decide) (gap_spaces hc (by simp) (h.head hcs)), andOn,
      ih (by simp [hc]) (by simpa using hcut) (by omega)]
    simp only [map_ok, List.map_append, Cursor.advance_advance, List.length_append, List.length_replicate]
    congr 3
  | @fold cs bs h hcs ih =>
    obtain ⟨fuel, rfl⟩ := Nat.exists_eq_add_one_of_ne_zero (Nat.ne_zero_of_lt hf)
    simp only [List.length_cons, List.length_append, List.length_replicate] at hf
    simp only [List.cons_append, List.append_assoc] at hc
    rw [body_gap hc (by decide) (gap_fold hn hc (h.head hcs) hcut), andOn,
      ih (by simp [hc]) (by simpa using hcut) (by omega)]
    simp only [map_ok, List.map_cons, List.map_nil, Cursor.advance_advance, List.singleton_append, List.length_cons,
      List.length_append, List.length_replicate]
    congr 3
    omega
  | @breaks r cs bs hr h hcs ih =>
    obtain ⟨fuel, rfl⟩ := Nat.exists_eq_add_one_of_ne_zero (Nat.ne_zero_of_lt hf)
    simp only [List.length_append, List.length_replicate] at hf
    simp only [List.append_assoc] at hc
    -- Doubled or not, the row starts with a line end, so it is read as a gap.
    obtain ⟨y, rest, hy, hyb⟩ : ∃ y rest, doubledBreaks r = y :: rest ∧ isGap y = true := by
      unfold doubledBreaks
      split
      · exact ⟨_, _, rfl, by decide⟩
      · cases r with
        | nil => exact absurd rfl hr.ne_nil
        | cons y r => exact ⟨y, r, rfl, by simp [isGap, (hr.all y List.mem_cons_self).1]⟩
    have hpos : 0 < (doubledBreaks r).length := by simp [hy]
    rw [body_gap (hc.trans (by rw [hy]; rfl)) hyb (gap_breaks hr hn hc (h.head hcs) hcut), andOn,
      ih (by simp [hc, ← List.drop_drop]) (by simpa using hcut) (by omega)]
    simp only [map_ok, List.map_append, Cursor.advance_advance, List.length_append, List.length_replicate]
    congr 3
    omega

/-- A text between single quotes is read as the text, from its first quote on. --/
theorem scan_of_singles (h : Singles n cs bs) (hn : 0 < n) (hc : c.rest = '\'' :: (bs ++ '\'' :: tail))
    (ht : tail.head? ≠ some '\'') (hcut : c.cut = false) :
    scan false c = .ok (.whole (String.ofList cs), c.advance (bs.length + 2)) := by
  have hlen : bs.length < c.rest.length := by
    rw [hc, List.length_cons, List.length_append]
    omega
  unfold scan
  rw [body_of_singles h hn (by simp [hc]) ht (by simpa using hcut) hlen, Cursor.step_eq_advance, Cursor.advance_advance,
    ok_bind, Nat.add_comm 1]
  simp only [Text.Wobbly.ofPoints_chars, pure_eq_ok]

end Quoted

/-! ### Writing -/

/-- A text that can stand between single quotes and be read again. --/
structure SinglesOk (cs : List Char) : Prop where
  ordinary : ∀ x ∈ cs, Style.isOrdinary x = true ∧ x ≠ '\x85'
  noSpaceBreak : Style.hasNeighbours (· == ' ') isBreak cs = false
  noBreakSpace : Style.hasNeighbours isBreak (· == ' ') cs = false

theorem SinglesOk.of_append (h : SinglesOk (cs ++ bs)) : SinglesOk bs :=
  ⟨fun x hx => h.ordinary x (List.mem_append_right _ hx), Style.hasNeighbours_of_append h.noSpaceBreak,
    Style.hasNeighbours_of_append h.noBreakSpace⟩

theorem isInline_of_isOrdinary (h : Style.isOrdinary x = true) (hb : isBreak x = false) : isInline x = true := by
  have hm : x ≠ '\uFEFF' := by
    rintro rfl
    simp [Style.isOrdinary] at h
  simp [isInline, hb, hm]

theorem isGap_of_isOrdinary (h : Style.isOrdinary x = true) (hb : isBreak x = false) (hs : (x == ' ') = false) :
    isGap x = false := by
  have ht : (x == '\t') = false := by
    rw [beq_eq_false_iff_ne]
    rintro rfl
    simp [Style.isOrdinary] at h
  simp [isGap, isSpace, hb, hs, ht]

theorem hasNeighbours_of_middle {p q : Char → Bool} {x y : Char} (as bs : List Char) (hx : p x = true)
    (hy : q y = true) : Style.hasNeighbours p q (as ++ x :: y :: bs) = true := by
  induction as with
  | nil => simp [Style.hasNeighbours, hx, hy]
  | cons z as ih =>
    cases hcs : as ++ x :: y :: bs with
    | nil => simp at hcs
    | cons w rest =>
      rw [List.cons_append, hcs, Style.hasNeighbours, ← hcs, ih, Bool.or_true]

/-- Behind a run of spaces or line ends in a text without mixed neighbours, a word follows. --/
theorem SinglesOk.after_blanks (h : SinglesOk (r ++ cs)) (hr : r ≠ [])
    (hkind : (∀ x ∈ r, (x == ' ') = true ∧ ∀ y, cs.head? = some y → (y == ' ') = false) ∨
      (∀ x ∈ r, isBreak x = true ∧ ∀ y, cs.head? = some y → isBreak y = false)) :
    ∀ y, cs.head? = some y → isGap y = false := by
  intro y hy
  obtain ⟨rest, rfl⟩ : ∃ rest, cs = y :: rest := by
    cases cs with
    | nil => cases hy
    | cons z rest =>
      cases hy
      exact ⟨rest, rfl⟩
  obtain ⟨r, x, rfl⟩ : ∃ r' x, r = r' ++ [x] := ⟨r.dropLast, r.getLast hr, (List.dropLast_concat_getLast hr).symm⟩
  have hord := (h.ordinary y (by simp)).1
  rw [List.append_assoc, List.singleton_append] at h
  rcases hkind with hkind | hkind
  · obtain ⟨hx, hy'⟩ := hkind x (by simp)
    refine isGap_of_isOrdinary hord ?_ (hy' y rfl)
    cases hb : isBreak y
    · rfl
    · have := hasNeighbours_of_middle (p := (· == ' ')) (q := isBreak) r rest hx hb
      rw [h.noSpaceBreak] at this
      cases this
  · obtain ⟨hx, hy'⟩ := hkind x (by simp)
    refine isGap_of_isOrdinary hord (hy' y rfl) ?_
    cases hs : y == ' '
    · rfl
    · have := hasNeighbours_of_middle (p := isBreak) (q := (· == ' ')) r rest hx hs
      rw [h.noBreakSpace] at this
      cases this

/-- A run that begins with a character: it is of one kind, and ends where the kind changes. --/
structure Page.IsRun (y : Char) (r rest : List Char) : Prop where
  head : r.head? = some y
  kind : ∀ x ∈ r, (x == ' ') = (y == ' ') ∧ isBreak x = isBreak y
  ends : ∀ x, rest.head? = some x → ¬((x == ' ') = (y == ' ') ∧ isBreak x = isBreak y)

theorem Page.run_spec (y : Char) (cs : List Char) :
    ∃ r rest, y :: cs = r ++ rest ∧ Page.run (y :: cs) = r ∧ IsRun y r rest := by
  refine ⟨Page.run (y :: cs), (y :: cs).dropWhile fun d => (d == ' ') == (y == ' ') && isBreak d == isBreak y,
    ?_, rfl, by simp [Page.run], fun x hx => ?_, fun x hx => ?_⟩
  · rw [Page.run]
    exact List.takeWhile_append_dropWhile.symm
  · have := List.mem_takeWhile_imp hx
    simpa using this
  · have := List.head?_dropWhile_not (fun d => (d == ' ') == (y == ' ') && isBreak d == isBreak y) (y :: cs)
    rw [hx] at this
    simpa using this

theorem beq_space_of_isBreak (h : isBreak x = true) : (x == ' ') = false := by
  rcases isBreak_cases h with rfl | rfl | rfl | rfl <;> rfl

namespace Page.IsRun

variable {y : Char} {rest : List Char}

theorem ne_nil (h : IsRun y r rest) : r ≠ [] := by
  rintro rfl
  cases h.head

/-- A run of line ends, and no gap behind it. --/
theorem breaks (h : IsRun y r rest) (hok : SinglesOk (r ++ rest)) (hb : isBreak y = true) :
    IsBreaks r ∧ ∀ z, rest.head? = some z → isGap z = false := by
  have hall : ∀ x ∈ r, isBreak x = true := fun x hx => (h.kind x hx).2.trans hb
  refine ⟨⟨h.ne_nil, fun x hx => ⟨hall x hx, (hok.ordinary x (List.mem_append_left _ hx)).2⟩⟩,
    hok.after_blanks h.ne_nil (Or.inr fun x hx => ⟨hall x hx, fun z hz => ?_⟩)⟩
  cases hbz : isBreak z
  · rfl
  · exact absurd ⟨(beq_space_of_isBreak hbz).trans (beq_space_of_isBreak hb).symm, hbz.trans hb.symm⟩ (h.ends z hz)

/-- A run of spaces, and no gap behind it. --/
theorem spaces (h : IsRun ' ' r rest) (hok : SinglesOk (r ++ rest)) :
    (∃ k, r = List.replicate (k + 1) ' ') ∧ ∀ z, rest.head? = some z → isGap z = false := by
  have hall : ∀ x ∈ r, (x == ' ') = true := fun x hx => (h.kind x hx).1
  refine ⟨⟨r.length - 1, List.eq_replicate_iff.mpr ⟨?_, fun x hx => beq_iff_eq.mp (hall x hx)⟩⟩,
    hok.after_blanks h.ne_nil (Or.inl fun x hx => ⟨hall x hx, fun z hz => ?_⟩)⟩
  · have := List.length_pos_iff.mpr h.ne_nil
    omega
  · cases hz' : z == ' '
    · rfl
    · obtain rfl := beq_iff_eq.mp hz'
      exact absurd ⟨rfl, rfl⟩ (h.ends ' ' hz)

/-- Any other run has neither line ends nor gaps. --/
theorem word (h : IsRun y r rest) (hok : SinglesOk (r ++ rest)) (hb : isBreak y = false) (hs : (y == ' ') = false) :
    ∀ x ∈ r, isInline x = true ∧ isGap x = false := by
  intro x hx
  obtain ⟨h1, h2⟩ := h.kind x hx
  have hord := (hok.ordinary x (List.mem_append_left _ hx)).1
  exact ⟨isInline_of_isOrdinary hord (h2.trans hb), isGap_of_isOrdinary hord (h2.trans hb) (h1.trans hs)⟩

end Page.IsRun

namespace Page

/-- How a character is written between single quotes. --/
def doubledQuote (x : Char) : List Char :=
  if x = '\'' then ['\'', '\''] else [x]

theorem singles_word (h : Singles n cs bs) (hr : ∀ x ∈ r, isInline x = true ∧ isGap x = false) :
    Singles n (r ++ cs) (r.flatMap doubledQuote ++ bs) := by
  induction r with
  | nil => exact h
  | cons y r ih =>
    have hrest := ih fun x hx => hr x (List.mem_cons_of_mem _ hx)
    rw [List.cons_append, List.flatMap_cons, List.append_assoc]
    by_cases hy : y = '\''
    · subst hy
      exact .quote hrest
    · rw [show doubledQuote y = [y] from if_neg hy]
      exact .char (hr y List.mem_cons_self) hy hrest

theorem wrote_foldl_lineBreak (p : Page) (r : List Char) (hr : r ≠ []) : Wrote p (r.foldl lineBreak p) r 0 true true := by
  induction r generalizing p with
  | nil => exact absurd rfl hr
  | cons x r ih =>
    have hx : Wrote p (p.lineBreak x) [x] 0 true true := ⟨rfl, rfl, rfl, rfl⟩
    cases r with
    | nil => exact hx
    | cons y r => exact hx.trans (ih (p.lineBreak x) (by simp))

theorem wrote_breaks (p : Page) (hr : r ≠ []) : Wrote p (p.breaks r) (doubledBreaks r) 0 true true := by
  cases r with
  | nil => exact absurd rfl hr
  | cons x r =>
    unfold breaks doubledBreaks
    by_cases hx : x = '\n'
    · subst hx
      exact (wrote_lineBreak p).trans (wrote_foldl_lineBreak _ _ (by simp))
    · simp only [hx, if_false, List.head?_cons, Option.some.injEq]
      exact wrote_foldl_lineBreak _ _ (by simp)

/-- What is known of a page in the middle of a text between single quotes: if nothing but blanks stands on its line,
    they reach up to the column of the lines. --/
def Reaches (p : Page) (n : Nat) : Prop := p.indenting = false ∨ n ≤ p.column

/-- From one page to another a text was written as between single quotes. Without splitting, a text on one line stays
    on one. --/
def WroteSingles (n : Nat) (split : Bool) (p q : Page) (cs : List Char) : Prop :=
  ∃ body column a i, Singles n cs body ∧ Wrote p q body column a i ∧
    (split = false → (∀ x ∈ cs, isBreak x = false) → column = p.column + body.length ∧
      (∀ x ∈ body, isInline x = true) ∧ body.length ≤ 2 * cs.length)

variable {p q q' : Page} {split : Bool}

theorem WroteSingles.nil (p : Page) : WroteSingles n split p p [] :=
  ⟨[], _, _, _, .nil, .refl p, fun _ _ => ⟨rfl, by simp, by simp⟩⟩

/-- A piece is written, and then the rest. --/
theorem WroteSingles.prepend {piece : List Char} {column : Nat} {a i : Bool}
    (hs : ∀ body, Singles n cs body → Singles n (r ++ cs) (piece ++ body)) (hw : Wrote p q piece column a i)
    (hone : split = false → (∀ x ∈ r, isBreak x = false) → column = p.column + piece.length ∧
      (∀ x ∈ piece, isInline x = true) ∧ piece.length ≤ 2 * r.length) (h : WroteSingles n split q q' cs) :
    WroteSingles n split p q' (r ++ cs) := by
  obtain ⟨body, column', a', i', hsingles, hwrote, hplain⟩ := h
  refine ⟨piece ++ body, column', a', i', hs body hsingles, hw.trans hwrote, fun h1 h2 => ?_⟩
  obtain ⟨hcol, hin, hle⟩ := hplain h1 fun x hx => h2 x (List.mem_append_right _ hx)
  obtain ⟨hcol', hin', hle'⟩ := hone h1 fun x hx => h2 x (List.mem_append_left _ hx)
  refine ⟨?_, fun x hx => (List.mem_append.mp hx).elim (hin' x) (hin x), ?_⟩
  · rw [hcol, hw.column, hcol', List.length_append]
    omega
  · rw [List.length_append, List.length_append]
    omega

theorem length_flatMap_doubledQuote (r : List Char) :
    r.length ≤ (r.flatMap doubledQuote).length ∧ (r.flatMap doubledQuote).length ≤ 2 * r.length := by
  induction r with
  | nil => simp
  | cons x r ih =>
    have hx : 1 ≤ (doubledQuote x).length ∧ (doubledQuote x).length ≤ 2 := by
      unfold doubledQuote
      split <;> simp
    simp only [List.flatMap_cons, List.length_append, List.length_cons]
    omega

theorem isInline_of_mem_doubledQuote (hr : ∀ y ∈ r, isInline y = true) (hx : x ∈ r.flatMap doubledQuote) :
    isInline x = true := by
  obtain ⟨y, hy, hxy⟩ := List.mem_flatMap.mp hx
  unfold doubledQuote at hxy
  split at hxy
  · simp only [List.mem_cons, List.not_mem_nil, or_false, or_self] at hxy
    rw [hxy]
    decide
  · rw [List.mem_singleton.mp hxy]
    exact hr y hy

/-- Words are written with their quotes doubled. --/
theorem WroteSingles.word (hr : ∀ x ∈ r, isInline x = true ∧ isGap x = false)
    (h : WroteSingles n split (p.write (r.flatMap doubledQuote)) q cs) : WroteSingles n split p q (r ++ cs) :=
  .prepend (fun _ hs => singles_word hs hr) (wrote_write p _)
    (fun _ _ => ⟨rfl, fun _ hx => isInline_of_mem_doubledQuote (fun y hy => (hr y hy).1) hx,
      (length_flatMap_doubledQuote r).2⟩) h

theorem WroteSingles.spaces (hcs : ∀ x, cs.head? = some x → isGap x = false)
    (h : WroteSingles n split (p.write (List.replicate (k + 1) ' ')) q cs) :
    WroteSingles n split p q (List.replicate (k + 1) ' ' ++ cs) :=
  .prepend (fun _ hs => .spaces k hs hcs) (wrote_write p _)
    (fun _ _ => ⟨rfl, fun x hx => by rw [List.eq_of_mem_replicate hx]; decide, by omega⟩) h

/-- A single space is given up for a new line. --/
theorem WroteSingles.fold (hcs : ∀ x, cs.head? = some x → isGap x = false) (hp : p.indenting = false ∨ n < p.column)
    (hsplit : split = true) (h : WroteSingles n split (p.indent n) q cs) : WroteSingles n split p q (' ' :: cs) := by
  have hw : Wrote p (p.indent n) ('\n' :: List.replicate n ' ') n true true :=
    hp.elim wrote_indent_of_text wrote_indent_of_lt
  refine WroteSingles.prepend (r := [' ']) (fun body hs => ?_) hw (fun h _ => ?_) h
  · exact .fold hs hcs
  · rw [hsplit] at h
    cases h

/-- Line ends are written, and the next line is indented. --/
theorem WroteSingles.breaks (hr : IsBreaks r) (hcs : ∀ x, cs.head? = some x → isGap x = false) (hn : 0 < n)
    (h : WroteSingles n split ((p.breaks r).indent n) q cs) : WroteSingles n split p q (r ++ cs) := by
  have hbreaks := wrote_breaks p hr.ne_nil
  have hindent := wrote_indent_of_marks (n := n) hbreaks.indenting (by rw [hbreaks.column]; exact hn)
  rw [hbreaks.column, Nat.sub_zero] at hindent
  refine WroteSingles.prepend (fun body hs => ?_) (hbreaks.trans hindent) (fun _ h => ?_) h
  · rw [List.append_assoc]
    exact .breaks hr hs hcs
  · cases r with
    | nil => exact absurd rfl hr.ne_nil
    | cons y r =>
      have hy := (hr.all y List.mem_cons_self).1
      rw [h y List.mem_cons_self] at hy
      cases hy

theorem singleRuns_eq (p : Page) (n : Nat) (split : Bool) (fuel : Nat) (first : Bool) {y : Char} {cs rest : List Char}
    (hcs : y :: cs = r ++ rest) (hrun : run (y :: cs) = r) (hhead : r.head? = some y) :
    singleRuns p n split (fuel + 1) first (y :: cs) = singleRuns
      (if isBreak y then (p.breaks r).indent n
        else if r = [' '] && width < p.column && split && !first && !rest.isEmpty then p.indent n
        else p.write (r.flatMap doubledQuote)) n split fuel false rest := by
  have hdrop : (y :: cs).drop r.length = rest := by rw [hcs]; simp
  simp only [singleRuns, hrun, hdrop]
  cases r with
  | nil => cases hhead
  | cons z r =>
    cases hhead
    rfl

/-- A single space that is followed by a word is given up for a new line; any other run of spaces is written. --/
theorem wrote_spaceRun {fuel k : Nat} {first : Bool} {rest : List Char}
    (hword : ∀ z, rest.head? = some z → isGap z = false) (hp : p.Reaches n)
    (hs : first = true ∨ p.indenting = false ∨ n < p.column)
    (ih : ∀ p : Page, p.Reaches n → WroteSingles n split p (singleRuns p n split fuel false rest) rest) :
    WroteSingles n split p (singleRuns
      (if List.replicate (k + 1) ' ' = [' '] && width < p.column && split && !first && !rest.isEmpty then p.indent n
        else p.write ((List.replicate (k + 1) ' ').flatMap doubledQuote)) n split fuel false rest)
      (List.replicate (k + 1) ' ' ++ rest) := by
  split
  · rename_i hfold
    simp only [Bool.and_eq_true, decide_eq_true_eq, Bool.not_eq_true'] at hfold
    obtain ⟨⟨⟨⟨hone, -⟩, hsplit⟩, hfirst⟩, -⟩ := hfold
    have hp' : p.indenting = false ∨ n < p.column := by
      rcases hs with h | h
      · rw [hfirst] at h
        cases h
      · exact h
    have hw : Wrote p (p.indent n) ('\n' :: List.replicate n ' ') n true true :=
      hp'.elim wrote_indent_of_text wrote_indent_of_lt
    rw [hone]
    exact .fold hword hp' hsplit (ih _ (Or.inr (Nat.le_of_eq hw.column.symm)))
  · have hflat : (List.replicate (k + 1) ' ').flatMap doubledQuote = List.replicate (k + 1) ' ' := by
      rw [List.flatMap_replicate]
      simp [doubledQuote]
    rw [hflat]
    exact .spaces hword (ih _ (hp.imp id fun h => Nat.le_trans h (Nat.le_add_right ..)))

/-- A text is written between single quotes run by run. --/
theorem wrote_singleRuns (hn : 0 < n) (split : Bool) (fuel : Nat) (first : Bool) (p : Page) (cs : List Char)
    (hok : SinglesOk cs) (hf : cs.length ≤ fuel) (hp : p.Reaches n)
    (hs : cs.head? = some ' ' → first = true ∨ p.indenting = false ∨ n < p.column) :
    WroteSingles n split p (singleRuns p n split fuel first cs) cs := by
  induction fuel generalizing first p cs with
  | zero =>
    obtain rfl := List.eq_nil_of_length_eq_zero (Nat.le_zero.mp hf)
    exact .nil p
  | succ fuel ih =>
    cases cs with
    | nil => exact .nil p
    | cons y cs =>
      obtain ⟨r, rest, hcs, hread, hrun⟩ := run_spec y cs
      have hpos := List.length_pos_iff.mpr hrun.ne_nil
      have hlen : rest.length ≤ fuel := by
        rw [hcs, List.length_append] at hf
        omega
      rw [singleRuns_eq p n split fuel first hcs hread hrun.head]
      rw [hcs] at hok ⊢
      have hrest : ∀ p : Page, p.Reaches n → (rest.head? = some ' ' → p.indenting = false ∨ n < p.column) →
          WroteSingles n split p (singleRuns p n split fuel false rest) rest :=
        fun p hp hs => ih false p rest hok.of_append hlen hp fun h => .inr (hs h)
      by_cases hb : isBreak y = true
      · obtain ⟨hbreaks, hword⟩ := hrun.breaks hok hb
        rw [if_pos hb]
        refine .breaks hbreaks hword hn (hrest _ (Or.inr ?_) fun h => absurd (hword ' ' h) (by decide))
        have hw := wrote_breaks p hrun.ne_nil
        rw [(wrote_indent_of_marks (n := n) hw.indenting (by rw [hw.column]; exact hn)).column]
      · rw [if_neg hb]
        rw [Bool.not_eq_true] at hb
        by_cases hsp : (y == ' ') = true
        · obtain rfl := beq_iff_eq.mp hsp
          obtain ⟨⟨k, rfl⟩, hword⟩ := hrun.spaces hok
          exact wrote_spaceRun hword hp (hs rfl) fun p hp =>
            hrest p hp fun h => absurd (hword ' ' h) (by decide)
        · rw [Bool.not_eq_true] at hsp
          -- Only a space is ever given up for a new line, and this run has none.
          have hnot : ¬(r = [' '] && width < p.column && split && !first && !rest.isEmpty) = true := by
            intro h
            simp only [Bool.and_eq_true, decide_eq_true_eq] at h
            have hhead := hrun.head
            rw [h.1.1.1.1] at hhead
            cases hhead
            cases hsp
          have hlonger : p.column < (p.write (r.flatMap doubledQuote)).column := by
            have := (length_flatMap_doubledQuote r).1
            rw [(wrote_write p _).column]
            omega
          rw [if_neg hnot]
          exact .word (hrun.word hok hb hsp) (hrest _ (hp.imp id fun h => by omega) fun _ => hp.imp id fun h => by omega)

/-- A text that is tidy is written between single quotes. --/
theorem wrote_single (hn : 0 < n) (split : Bool) (p : Page) (hok : SinglesOk cs) :
    ∃ body column, Singles n cs body ∧
      Wrote p (single p n split cs) (p.lead ++ '\'' :: (body ++ ['\''])) column false false ∧
      (split = false → (∀ x ∈ cs, isBreak x = false) → column = p.column + p.lead.length + (body.length + 2) ∧
        (∀ x ∈ body, isInline x = true) ∧ body.length ≤ 2 * cs.length) := by
  have hmark := wrote_mark p ['\'']
  obtain ⟨body, column, a, i, hsingles, hwrote, hplain⟩ := wrote_singleRuns hn split cs.length true (p.mark ['\'']) cs
    hok (Nat.le_refl _) (Or.inl hmark.indenting) fun _ => Or.inl rfl
  refine ⟨body, column + 1, hsingles, ?_, fun h1 h2 => ?_⟩
  · have hclose := wrote_closeMark (singleRuns (p.mark ['\'']) n split cs.length true cs) ['\'']
    rw [hwrote.column] at hclose
    unfold single
    simpa only [List.append_assoc, List.cons_append, List.nil_append, List.length_cons, List.length_nil,
      Nat.zero_add] using (hmark.trans hwrote).trans hclose
  · obtain ⟨hcol, hin, hle⟩ := hplain h1 h2
    refine ⟨?_, hin, hle⟩
    rw [hcol, hmark.column]
    simp only [List.length_append, List.length_cons, List.length_nil]
    omega

end Page

/-- A text is fit for single quotes if its style may be single and it has no next-line characters. --/
theorem singlesOk_of_allowsSingle (h : Style.allowsSingle cs = true) (hn : ∀ x ∈ cs, x ≠ '\x85') : SinglesOk cs := by
  simp only [Style.allowsSingle, Style.isTidy, Bool.and_eq_true, Bool.not_eq_true', List.all_eq_true] at h
  exact ⟨fun x hx => ⟨h.1.2 x hx, hn x hx⟩, h.1.1, h.2⟩

end Retag.Markup

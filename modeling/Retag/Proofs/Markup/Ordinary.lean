import Retag.Proofs.Markup.Layout

/-! Pages of ordinary characters. Whatever is written, nothing but ordinary characters comes on the page, so that it
    can be read as markup at all. -/

namespace Retag.Markup

open Page

variable {p : Page} {cs : List Char} {n : Nat} {x : Char}

def AreOrdinary (cs : List Char) : Prop :=
  ∀ x ∈ cs, Style.isOrdinary x = true

instance : Decidable (AreOrdinary cs) :=
  List.decidableBAll _ cs

theorem areOrdinary_nil : AreOrdinary [] := nofun

theorem AreOrdinary.cons (hx : Style.isOrdinary x = true) (h : AreOrdinary cs) : AreOrdinary (x :: cs) := by
  intro y hy
  rcases List.mem_cons.mp hy with rfl | hy
  · exact hx
  · exact h y hy

theorem AreOrdinary.append {bs : List Char} (h : AreOrdinary cs) (h' : AreOrdinary bs) : AreOrdinary (cs ++ bs) :=
  fun x hx => (List.mem_append.mp hx).elim (h x) (h' x)

theorem AreOrdinary.subset {bs : List Char} (h : AreOrdinary cs) (hs : bs ⊆ cs) : AreOrdinary bs :=
  fun x hx => h x (hs hx)

theorem areOrdinary_of_ascii (h : ∀ x ∈ cs, 0x20 ≤ x.toNat ∧ x.toNat ≤ 0x7e) : AreOrdinary cs := by
  intro x hx
  have := h x hx
  simp [Style.isOrdinary, this.1, this.2]

theorem areOrdinary_of_isTidy (h : Style.isTidy cs = true) : AreOrdinary cs := by
  simp only [Style.isTidy, Bool.and_eq_true, List.all_eq_true] at h
  exact h.2

namespace Page

/-- Nothing but ordinary characters is on a page. --/
def IsOrdinary (p : Page) : Prop :=
  AreOrdinary p.reversed

variable {q : Page} {column : Nat} {a i : Bool}

theorem IsOrdinary.wrote (hp : p.IsOrdinary) (h : Wrote p q cs column a i) (hcs : AreOrdinary cs) : q.IsOrdinary := by
  rw [IsOrdinary, h.reversed]
  exact AreOrdinary.append (hcs.subset (List.reverse_subset.mpr (List.Subset.refl _))) hp

theorem IsOrdinary.write (hp : p.IsOrdinary) (hcs : AreOrdinary cs) : (p.write cs).IsOrdinary :=
  hp.wrote (wrote_write p cs) hcs

theorem IsOrdinary.closeMark (hp : p.IsOrdinary) (hcs : AreOrdinary cs) : (p.closeMark cs).IsOrdinary :=
  hp.wrote (wrote_closeMark p cs) hcs

theorem areOrdinary_lead (p : Page) : AreOrdinary p.lead := by
  unfold lead
  split
  · exact nofun
  · exact fun x hx => List.mem_singleton.mp hx ▸ rfl

theorem IsOrdinary.mark (hp : p.IsOrdinary) (hcs : AreOrdinary cs) : (p.mark cs).IsOrdinary :=
  hp.wrote (wrote_mark p cs) ((areOrdinary_lead p).append hcs)

theorem IsOrdinary.entryMark (hp : p.IsOrdinary) (hx : Style.isOrdinary x = true) : (p.entryMark x).IsOrdinary :=
  hp.wrote (wrote_entryMark p x) ((areOrdinary_lead p).append fun _ hy => List.mem_singleton.mp hy ▸ hx)

theorem IsOrdinary.lineBreak (hp : p.IsOrdinary) (hx : Style.isOrdinary x = true) : (p.lineBreak x).IsOrdinary := by
  intro y hy
  rcases List.mem_cons.mp hy with rfl | hy
  · exact hx
  · exact hp y hy

theorem IsOrdinary.indent (hp : p.IsOrdinary) (n : Nat) : (p.indent n).IsOrdinary := by
  have hspaces : ∀ k, AreOrdinary (List.replicate k ' ') := fun k x hx => (List.mem_replicate.mp hx).2 ▸ rfl
  have hq : ∀ q : Page, q.IsOrdinary →
      (if q.column < n then { q.write (List.replicate (n - q.column) ' ') with afterBlank := true } else q).IsOrdinary := by
    intro q hq
    split
    · exact hq.write (hspaces _)
    · exact hq
  unfold Page.indent
  dsimp only
  split
  · exact hq _ (hp.lineBreak rfl)
  · exact hq _ hp

theorem IsOrdinary.foldl_lineBreak (hp : p.IsOrdinary) (hcs : AreOrdinary cs) :
    (cs.foldl Page.lineBreak p).IsOrdinary := by
  induction cs generalizing p with
  | nil => exact hp
  | cons x cs ih => exact ih (hp.lineBreak (hcs x List.mem_cons_self)) fun y hy => hcs y (List.mem_cons_of_mem _ hy)

/-! ### Scalars -/

theorem run_subset (cs : List Char) : run cs ⊆ cs := by
  unfold run
  split
  · exact List.Subset.refl _
  · exact (List.takeWhile_prefix _).subset

theorem IsOrdinary.plainRuns (hp : p.IsOrdinary) (split : Bool) (fuel : Nat) (hcs : AreOrdinary cs) :
    (Page.plainRuns p n split fuel cs).IsOrdinary := by
  induction fuel generalizing p cs with
  | zero => exact hp
  | succ fuel ih =>
    rw [Page.plainRuns]
    dsimp only
    have hrest : AreOrdinary (cs.drop (run cs).length) := hcs.subset (List.drop_subset _ _)
    split
    · exact hp
    · refine ih ?_ hrest
      split
      · exact hp.indent n
      · exact hp.write (hcs.subset (run_subset cs))

theorem IsOrdinary.plain (hp : p.IsOrdinary) (n : Nat) (split root : Bool) (hcs : AreOrdinary cs) :
    (p.plain n split root cs).IsOrdinary := by
  unfold Page.plain
  dsimp only
  split
  · exact hp
  · refine IsOrdinary.plainRuns ?_ _ _ hcs
    split
    · exact hp
    · exact IsOrdinary.write (p := { p with openEnded := p.openEnded || root }) hp fun x hx =>
        List.mem_singleton.mp hx ▸ rfl

theorem IsOrdinary.breaks (hp : p.IsOrdinary) (hcs : AreOrdinary cs) : (p.breaks cs).IsOrdinary := by
  unfold Page.breaks
  split
  · exact hp
  · refine IsOrdinary.foldl_lineBreak ?_ hcs
    split
    · exact hp.lineBreak rfl
    · exact hp

theorem IsOrdinary.singleRuns (hp : p.IsOrdinary) (split : Bool) (fuel : Nat) (first : Bool) (hcs : AreOrdinary cs) :
    (Page.singleRuns p n split fuel first cs).IsOrdinary := by
  induction fuel generalizing p cs first with
  | zero => exact hp
  | succ fuel ih =>
    rw [Page.singleRuns]
    dsimp only
    have hrest : AreOrdinary (cs.drop (run cs).length) := hcs.subset (List.drop_subset _ _)
    have hrun : AreOrdinary (run cs) := hcs.subset (run_subset cs)
    split
    · exact hp
    · rename_i c r hr
      refine ih ?_ _ hrest
      split
      · exact (hp.breaks hrun).indent n
      · split
        · exact hp.indent n
        · refine hp.write fun x hx => ?_
          obtain ⟨d, hd, hx⟩ := List.mem_flatMap.mp hx
          split at hx
          · simp only [List.mem_cons, List.not_mem_nil, or_false, or_self] at hx
            exact hx ▸ rfl
          · exact List.mem_singleton.mp hx ▸ hrun d hd

theorem IsOrdinary.single (hp : p.IsOrdinary) (n : Nat) (split : Bool) (hcs : AreOrdinary cs) :
    (p.single n split cs).IsOrdinary :=
  ((hp.mark (by decide)).singleRuns split _ _ hcs).closeMark (by decide)

theorem areOrdinary_hexDigits (width n : Nat) : AreOrdinary (Text.hexDigits true width n) :=
  fun _ => Text.forall_mem_hexDigits (P := fun x => Style.isOrdinary x = true) (by decide)

theorem areOrdinary_escape (x : Char) : AreOrdinary (escape x) := by
  unfold escape
  split
  · rename_i y hy
    unfold escapeLetter? at hy
    split at hy <;> cases hy <;> decide
  · dsimp only
    split
    · exact .cons rfl (.cons rfl (areOrdinary_hexDigits 2 _))
    · split
      · exact .cons rfl (.cons rfl (areOrdinary_hexDigits 4 _))
      · exact .cons rfl (.cons rfl (areOrdinary_hexDigits 8 _))

theorem areOrdinary_of_written {x : Text.Point} {e : List Char} (h : written x = .inr e) : AreOrdinary e := by
  rcases written_eq_inr h with ⟨c, -, -, rfl⟩ | ⟨m, -, rfl⟩
  · exact areOrdinary_escape c
  · exact .cons rfl (.cons rfl (areOrdinary_hexDigits 4 _))

theorem IsOrdinary.fold (hp : p.IsOrdinary) (n : Nat) (next : Option Char) : (p.fold n next).IsOrdinary := by
  have hline : ((p.write ['\\']).indent n).inText.IsOrdinary := (hp.write (by decide)).indent n
  unfold Page.fold
  dsimp only
  split
  · exact hline.write (by decide)
  · exact hline

theorem IsOrdinary.doubleBody {points : List Text.Point} (hp : p.IsOrdinary) (split first : Bool) {pending : List Char}
    (hpending : AreOrdinary pending) : (Page.doubleBody p n split first pending points).IsOrdinary := by
  have hreverse : ∀ {bs : List Char}, AreOrdinary bs → AreOrdinary bs.reverse :=
    fun h => h.subset (List.reverse_subset.mpr (List.Subset.refl _))
  induction points generalizing p first pending with
  | nil => exact hp.write (hreverse hpending)
  | cons z rest ih =>
    rw [Page.doubleBody]
    dsimp only
    cases hz : written z with
    | inr e =>
      refine ih ?_ _ areOrdinary_nil
      split
      · exact ((hp.write (hreverse hpending)).write (areOrdinary_of_written hz)).fold n _
      · exact (hp.write (hreverse hpending)).write (areOrdinary_of_written hz)
    | inl c =>
      have hc : Style.isOrdinary c = true := isOrdinary_of_not_isEscaped (written_eq_inl hz).2
      dsimp only
      split
      · exact ih ((hp.write (hreverse hpending)).fold n _) _ fun x hx => List.mem_singleton.mp hx ▸ hc
      · refine ih hp _ fun x hx => ?_
        rcases List.mem_cons.mp hx with rfl | hx
        · exact hc
        · exact hpending x hx

theorem IsOrdinary.double (hp : p.IsOrdinary) (n : Nat) (split : Bool) (points : List Text.Point) :
    (p.double n split points).IsOrdinary :=
  ((hp.mark (by decide)).doubleBody split _ areOrdinary_nil).closeMark (by decide)

theorem IsOrdinary.literalRuns (hp : p.IsOrdinary) (fuel : Nat) (hcs : AreOrdinary cs) :
    (Page.literalRuns p n fuel cs).IsOrdinary := by
  induction fuel generalizing p cs with
  | zero => exact hp
  | succ fuel ih =>
    rw [Page.literalRuns]
    dsimp only
    generalize hline : cs.takeWhile (fun c => !isBreak c) = line
    have hline' : AreOrdinary line := hcs.subset (hline ▸ (List.takeWhile_prefix _).subset)
    have hrest : AreOrdinary (cs.drop line.length) := hcs.subset (List.drop_subset _ _)
    have hends : AreOrdinary ((cs.drop line.length).takeWhile isBreak) :=
      hrest.subset (List.takeWhile_prefix _).subset
    have hp' : (if line.isEmpty = true then p else (p.indent n).writeUncounted line).IsOrdinary := by
      split
      · exact hp
      · exact AreOrdinary.append (hline'.subset (List.reverse_subset.mpr (List.Subset.refl _))) (hp.indent n)
    by_cases hempty : (cs.drop line.length).isEmpty = true
    · rw [if_pos hempty]
      by_cases hnone : line.isEmpty = true
      · rwa [if_pos hnone]
      · rw [if_neg hnone]
        exact hp'.lineBreak rfl
    · rw [if_neg hempty]
      exact ih (hp'.foldl_lineBreak hends) (hrest.subset (List.drop_subset _ _))

theorem IsOrdinary.literal (hp : p.IsOrdinary) (n : Nat) (hcs : AreOrdinary cs) : (p.literal n cs).IsOrdinary := by
  have hhints : AreOrdinary ('|' :: hints cs) := by
    unfold hints
    dsimp only
    refine .cons rfl (AreOrdinary.append ?_ ?_)
    · split
      · exact nofun
      · split <;> decide
    · split
      · exact nofun
      · split <;> decide
      · split
        · split <;> decide
        · decide
  exact IsOrdinary.literalRuns
    (IsOrdinary.lineBreak (p := { p.mark ('|' :: hints cs) with
      openEnded := (p.mark ('|' :: hints cs)).openEnded || (hints cs).getLast? == some '+' }) (hp.mark hhints) rfl) _ hcs

end Page

namespace Outline

theorem isOrdinary_of_isNameChar (h : isNameChar x = true) : Style.isOrdinary x = true := by
  have hrange : 0x20 ≤ x.toNat ∧ x.toNat ≤ 0x7e := by
    delta isNameChar Char.isAlphanum Char.isAlpha Char.isUpper Char.isLower Char.isDigit at h
    simp only [Bool.or_eq_true, Bool.and_eq_true, decide_eq_true_eq, beq_iff_eq, ge_iff_le, UInt32.le_iff_toNat_le] at h
    rcases h with (((h | h) | h) | rfl) | rfl
    · exact ⟨Nat.le_trans (by decide) h.1, Nat.le_trans h.2 (by decide)⟩
    · exact ⟨Nat.le_trans (by decide) h.1, Nat.le_trans h.2 (by decide)⟩
    · exact ⟨Nat.le_trans (by decide) h.1, Nat.le_trans h.2 (by decide)⟩
    · decide
    · decide
  simp [Style.isOrdinary, hrange.1, hrange.2]

theorem areOrdinary_name {w : List Char} (h : Scanner.IsName w) : AreOrdinary w :=
  fun x hx => isOrdinary_of_isNameChar (h.all x hx)

theorem areOrdinary_tagText {tag : Tag} (htag : ∀ t, tag ≠ .other t) : AreOrdinary (tagText tag) := by
  obtain ⟨w, hw, -, hletters, -⟩ := tagText_eq htag
  rw [hw]
  exact .cons rfl (.cons rfl fun x hx => isOrdinary_of_isNameChar
    (by simp [isNameChar, Char.isAlphanum, hletters x hx]))

theorem isOrdinary_writeAnchor (hp : p.IsOrdinary) {anchor : Option String} (ha : IsAnchor anchor) :
    (writeAnchor p anchor).IsOrdinary := by
  cases anchor with
  | none => exact hp
  | some name => exact hp.mark (.cons rfl (areOrdinary_name (ha name rfl)))

theorem isOrdinary_tagged (hp : p.IsOrdinary) {tag : Tag} (htag : ∀ t, tag ≠ .other t) :
    (if tag == .map then p else p.mark (tagText tag)).IsOrdinary := by
  split
  · exact hp
  · exact hp.mark (areOrdinary_tagText htag)

theorem isOrdinary_written (hp : p.IsOrdinary) {tag : Tag} {literal simple : Bool} (split root : Bool) :
    (written p n split root (Style.choose tag cs literal simple) cs).IsOrdinary := by
  cases hstyle : Style.choose tag cs literal simple with
  | plain =>
    have htidy := Style.choose_eq_plain hstyle
    simp only [Style.allowsPlain, Bool.and_eq_true] at htidy
    exact hp.plain _ _ _ (areOrdinary_of_isTidy htidy.1.1.1)
  | single =>
    have htidy := (Style.choose_eq_single hstyle).1
    simp only [Style.allowsSingle, Bool.and_eq_true] at htidy
    exact hp.single _ _ (areOrdinary_of_isTidy htidy.1)
  | double => exact hp.double _ _ _
  | literal =>
    have htidy : Style.allowsLiteral cs = true := by
      simp only [Style.choose] at hstyle
      split at hstyle
      · split at hstyle
        · rename_i h
          exact (Bool.and_eq_true_iff.mp h).2
        · cases hstyle
      · split at hstyle
        · cases hstyle
        · split at hstyle <;> cases hstyle
    simp only [Style.allowsLiteral, Bool.and_eq_true] at htidy
    exact hp.literal _ (areOrdinary_of_isTidy htidy.1.2)

theorem isOrdinary_writeScalar (hp : p.IsOrdinary) {tag : Tag} (htag : ∀ t, tag ≠ .other t) (indent : Option Nat)
    (place : Place) (text : Text.Wobbly) (literal : Bool) : (writeScalar p indent place tag text literal).IsOrdinary := by
  cases text with
  | whole s =>
    rw [writeScalar, writeWhole_eq]
    refine isOrdinary_written ?_ _ _
    split
    · exact hp
    · exact hp.mark (areOrdinary_tagText htag)
  | torn t =>
    rw [writeScalar, writeTorn]
    refine IsOrdinary.double ?_ _ _ _
    split
    · exact hp
    · exact hp.mark (areOrdinary_tagText htag)

mutual

/-- Nothing but ordinary characters is written for a node. --/
theorem isOrdinary_write : (o : Outline) → {simple : Bool} → IsLegible simple o → ∀ {p : Page} {indent : Option Nat}
    {place : Place}, p.IsOrdinary → (write p indent place o).IsOrdinary
  | .alias name, _, hname, p, _, _, hp => hp.mark (.cons rfl (areOrdinary_name hname))
  | .scalar anchor tag text literal, _, ⟨ha, htag, _⟩, p, indent, place, hp => by
    rw [write]
    exact isOrdinary_writeScalar (isOrdinary_writeAnchor hp ha) htag indent place text literal
  | .seq anchor [], _, ⟨ha, _⟩, p, indent, place, hp => by
    rw [write]
    exact ((isOrdinary_writeAnchor hp ha).mark (by decide)).closeMark (by decide)
  | .seq anchor (o :: os), _, ⟨ha, hos⟩, p, indent, place, hp => by
    rw [write]
    exact isOrdinary_writeItems (o :: os) hos (isOrdinary_writeAnchor hp ha)
  | .map anchor tag [], _, ⟨ha, htag, _⟩, p, indent, place, hp => by
    rw [write]
    exact ((isOrdinary_tagged (isOrdinary_writeAnchor hp ha) htag).mark (by decide)).closeMark (by decide)
  | .map anchor tag (e :: es), _, ⟨ha, htag, hes⟩, p, indent, place, hp => by
    rw [write]
    exact isOrdinary_writeEntries (e :: es) hes (isOrdinary_tagged (isOrdinary_writeAnchor hp ha) htag)

theorem isOrdinary_writeItems : (os : List Outline) → AreLegible os → ∀ {p : Page} {n : Nat}, p.IsOrdinary →
    (writeItems p n os).IsOrdinary
  | [], _, p, n, hp => hp
  | o :: os, ⟨ho, hos⟩, p, n, hp => by
    rw [writeItems]
    exact isOrdinary_writeItems os hos (isOrdinary_write o ho ((hp.indent n).entryMark rfl))

theorem isOrdinary_writeEntries : (es : List (Outline × Outline)) → EntriesAreLegible es → ∀ {p : Page} {n : Nat},
    p.IsOrdinary → (writeEntries p n es).IsOrdinary
  | [], _, p, n, hp => hp
  | (k, v) :: es, ⟨_, hk, hv, hes⟩, p, n, hp => by
    rw [writeEntries]
    refine isOrdinary_writeEntries es hes (isOrdinary_write v hv ?_)
    split
    · exact (isOrdinary_write k hk (hp.indent n)).closeMark (by decide)
    · exact ((isOrdinary_write k hk ((hp.indent n).entryMark rfl)).indent n).entryMark rfl

end

/-- The text of an outline that can be read again is one of ordinary characters. --/
theorem areOrdinary_text {o : Outline} (h : IsLegible false o) : AreOrdinary o.text := by
  have hstart : ({} : Page).IsOrdinary := areOrdinary_nil
  have hp : ((write {} none .root o).indent 0).IsOrdinary := (isOrdinary_write o h hstart).indent 0
  refine AreOrdinary.subset ?_ (List.reverse_subset.mpr (List.Subset.refl _))
  split
  · exact (hp.mark (by decide)).indent 0
  · exact hp

end Outline

end Retag.Markup

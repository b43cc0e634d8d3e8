import Retag.Proofs.Manifest.Plain

/-! Tags written to a manifest and read from it. A tag is one word of printable characters, so it stands on the line of
    its key, as it is or between single quotes. It has no quotes exactly if its form is that of a text; in all other
    cases the line without quotes would be read as another value, or could not be read at all. -/

namespace Retag

open Markup Page

/-! ### Tags as words -/

namespace Tag

variable {x : Char} {P : Char → Prop} {w : List Char}

/-- What holds of the characters of tags among ASCII holds of every character of a tag. --/
theorem forall_inner [DecidablePred P] (h : ∀ n < 128, isInner (Char.ofNat n) = true → P (Char.ofNat n))
    (hx : isInner x = true) : P x := by
  have hlt : x.toNat < 128 := by
    simp only [isInner, isStart, Bool.or_eq_true, Bool.and_eq_true, decide_eq_true_eq, beq_iff_eq] at hx
    rcases hx with (((((hx | hx) | hx) | hx) | rfl) | rfl)
    · omega
    · omega
    · omega
    · omega
    · decide
    · decide
  have hofNat : Char.ofNat x.toNat = x := Char.ofNat_toNat x
  rw [← hofNat] at hx ⊢
  exact h x.toNat hlt hx

/-- The characters of tags are printable, and there is no gap, no byte order mark, no colon and no quote among them. --/
theorem ordinary_of_isInner (hx : isInner x = true) :
    IsPrintable x ∧ (isGap x = false ∧ x ≠ '\uFEFF') ∧ x ≠ ':' ∧ x ≠ '\'' :=
  forall_inner (P := fun x => IsPrintable x ∧ (isGap x = false ∧ x ≠ '\uFEFF') ∧ x ≠ ':' ∧ x ≠ '\'')
    (by decide +kernel) hx

/-- No tag starts with a character that could start a mark, a separator of documents or the form of a mark. --/
theorem unmarked_of_isStart (hx : isStart x = true) :
    "#,[]\x7b\x7d&*!|>'\"%@\x60".toList.contains x = false ∧ x ∉ ['?', ':', '-', '.', '<', '=', '!', '&', '*'] := by
  refine forall_inner (P := fun x => isStart x = true → "#,[]\x7b\x7d&*!|>'\"%@\x60".toList.contains x = false ∧
    x ∉ ['?', ':', '-', '.', '<', '=', '!', '&', '*']) (by decide +kernel) ?_ hx
  rw [isInner, hx, Bool.true_or, Bool.true_or]

theorem isInner_of_mem (h : isTag w = true) (hx : x ∈ w) : isInner x = true := by
  cases w with
  | nil => cases hx
  | cons c rest =>
    simp only [isTag, Bool.and_eq_true, List.all_eq_true] at h
    rcases List.mem_cons.mp hx with rfl | hx
    · rw [isInner, h.1.1, Bool.true_or, Bool.true_or]
    · exact h.1.2 x hx

theorem arePrintable (h : isTag w = true) : ArePrintable w :=
  fun _ hx => (ordinary_of_isInner (isInner_of_mem h hx)).1

theorem forall_mem_ne_quote (h : isTag w = true) : ∀ x ∈ w, x ≠ '\'' :=
  fun _ hx => (ordinary_of_isInner (isInner_of_mem h hx)).2.2.2

theorem hasValueMark_eq (h : isTag w = true) : Style.hasValueMark w = false := by
  have hcolon : ∀ x ∈ w, (x == ':') = false := fun _ hx =>
    beq_eq_false_iff_ne.mpr (ordinary_of_isInner (isInner_of_mem h hx)).2.2.1
  clear h
  induction w with
  | nil => rfl
  | cons c rest ih =>
    rw [Style.hasValueMark, hcolon c List.mem_cons_self, ih fun x hx => hcolon x (List.mem_cons_of_mem _ hx)]
    rfl

theorem isWord (h : isTag w = true) : IsWord w where
  ne_nil := by
    rintro rfl
    cases h
  inline := fun _ hx => (ordinary_of_isInner (isInner_of_mem h hx)).2.1
  unmarked := hasValueMark_eq h

theorem exists_start (h : isTag w = true) : ∃ x rest, w = x :: rest ∧ isStart x = true := by
  cases w with
  | nil => cases h
  | cons x rest =>
    simp only [isTag, Bool.and_eq_true] at h
    exact ⟨x, rest, rfl, h.1.1⟩

/-- A tag starts neither like a mark nor like a separator of documents. --/
theorem starts_eq (h : isTag w = true) : startsAsSeparator w = false ∧ Style.startsAsMark w = false := by
  obtain ⟨x, rest, rfl, hx⟩ := exists_start h
  obtain ⟨hmark, hother⟩ := unmarked_of_isStart hx
  have hne : ∀ y ∈ ['?', ':', '-', '.', '<', '=', '!', '&', '*'], x ≠ y := by
    rintro y hy rfl
    exact hother hy
  refine ⟨?_, ?_⟩
  · unfold startsAsSeparator
    split
    · rename_i heq
      exact absurd (List.cons.inj heq).1 (hne '-' (by decide))
    · rename_i heq
      exact absurd (List.cons.inj heq).1 (hne '.' (by decide))
    · rfl
  · rw [Style.startsAsMark, hmark, beq_eq_false_iff_ne.mpr (hne '?' (by decide)),
      beq_eq_false_iff_ne.mpr (hne ':' (by decide)), beq_eq_false_iff_ne.mpr (hne '-' (by decide))]
    rfl

/-- A tag can be plain. --/
theorem allowsPlain_eq (h : isTag w = true) : Style.allowsPlain w = true := by
  have hword := isWord h
  obtain ⟨hseparator, hmark⟩ := starts_eq h
  have hvalue : Style.hasValueMark w.tail = false := by
    have hvalue := hword.unmarked
    cases w with
    | nil => rfl
    | cons x rest =>
      rw [Style.hasValueMark, Bool.or_eq_false_iff] at hvalue
      exact hvalue.2
  have hsharp : Style.hasNeighbours isGap (· == '#') w = false :=
    Style.hasNeighbours_eq_false (Or.inl fun x hx => (hword.inline x hx).1)
  have hends : Style.startsOrEnds (· == ' ') w = false := by
    have hhead : ∀ x, w.head? = some x → (x == ' ') = false := fun x hx => hword.ne_space x (List.mem_of_head? hx)
    have hlast : ∀ x, w.getLast? = some x → (x == ' ') = false := fun x hx => hword.ne_space x (List.mem_of_getLast? hx)
    rw [Style.startsOrEnds, Bool.or_eq_false_iff]
    refine ⟨?_, ?_⟩
    · cases hx : w.head? with
      | none => rfl
      | some x => exact hhead x hx
    · cases hx : w.getLast? with
      | none => rfl
      | some x => exact hlast x hx
  rw [Style.allowsPlain, Style.looksMarked, isTidy_of_isPrintable (arePrintable h),
    isMultiline_of_isPrintable (arePrintable h), hends, hseparator, hmark, hvalue, hsharp]
  rfl

theorem dropLineFeed_eq (h : isTag w = true) : Form.dropLineFeed w = w := by
  unfold Form.dropLineFeed
  split
  · rename_i rest hrev
    have hmem : '\n' ∈ w := List.mem_reverse.mp (hrev ▸ List.mem_cons_self)
    cases ((isWord h).inline '\n' hmem).1
  · rfl

/-- The form of a tag is that of a text, a truth value, null, a number or a timestamp, and never that of a mark. --/
theorem ofForm_mem (h : isTag w = true) :
    Markup.Tag.ofForm w ∈ [.str, .bool, .null, .int, .float, (.timestamp : Markup.Tag)] := by
  have hdrop := dropLineFeed_eq h
  have hline : w ≠ ['\n'] := by
    rintro rfl
    cases h
  obtain ⟨x, rest, rfl, hx⟩ := exists_start h
  have hne : ∀ y ys, y ∈ ['?', ':', '-', '.', '<', '=', '!', '&', '*'] → x :: rest ≠ y :: ys := by
    rintro y ys hy heq
    rw [← (List.cons.inj heq).1] at hy
    exact (unmarked_of_isStart hx).2 hy
  simp only [Markup.Tag.ofForm, if_neg hline, hdrop, if_neg (hne '<' ['<'] (by decide)),
    if_neg (hne '=' [] (by decide)), decide_eq_false (hne '!' [] (by decide)), decide_eq_false (hne '&' [] (by decide)),
    decide_eq_false (hne '*' [] (by decide)), Bool.or_self, Bool.false_eq_true, if_false]
  split
  · simp
  split
  · simp
  split
  · simp
  split
  · simp
  split <;> simp

end Tag

/-! ### Words on a page -/

namespace Markup

variable {w : List Char} {n : Nat} {split : Bool}

theorem Page.run_of_isWord (hw : IsWord w) : run w = w := by
  have hrun : run (w ++ []) = w := run_word hw (Or.inl rfl)
  rwa [List.append_nil] at hrun

/-- A word alone is written as it is, apart from what is before it. --/
theorem Page.plain_word (hw : IsWord w) (p : Page) :
    p.plain n split false w = { p.write (p.lead ++ w) with afterBlank := false, indenting := false } := by
  have hempty : w.isEmpty = false := by simpa using hw.ne_nil
  obtain ⟨fuel, hfuel⟩ := Nat.exists_eq_succ_of_ne_zero (List.length_pos_iff.mpr hw.ne_nil).ne'
  have hruns : ∀ q : Page, plainRuns q n split w.length w = q.write w := fun q => by
    have hword := plainRuns_word q n split fuel hw (b := []) (Or.inl rfl)
    rwa [List.append_nil, plainRuns_nil, ← Nat.succ_eq_add_one, ← hfuel] at hword
  simp only [plain, hempty, hruns, Bool.or_false, Bool.false_eq_true, if_false]
  unfold lead
  split <;> simp [write, inText, Nat.add_assoc, Nat.add_comm 1]

theorem Page.openEnded_indent (p : Page) (n : Nat) : (p.indent n).openEnded = p.openEnded := by
  simp only [indent]
  split <;> split <;> rfl

theorem Page.singleRuns_nil (p : Page) (n : Nat) (split first : Bool) (fuel : Nat) :
    singleRuns p n split fuel first [] = p := by
  cases fuel <;> rfl

/-- Between single quotes a word without quotes is written as it is. --/
theorem Page.single_word (hw : IsWord w) (hquote : ∀ x ∈ w, x ≠ '\'') (p : Page) :
    p.single n split w = ((p.mark ['\'']).write w).closeMark ['\''] := by
  have hdoubled : w.flatMap doubledQuote = w := by
    have hone : ∀ x ∈ w, doubledQuote x = [x] := fun x hx => if_neg (hquote x hx)
    rw [List.flatMap_congr hone, List.flatMap_singleton']
  cases w with
  | nil => exact absurd rfl hw.ne_nil
  | cons x rest =>
    have hbreak : ¬isBreak x = true := by simp [isBreak_of_not_isGap (hw.inline x List.mem_cons_self).1]
    have hruns := singleRuns_eq (p.mark ['\'']) n split rest.length true (List.append_nil _).symm (run_of_isWord hw) rfl
    simp only [if_neg hbreak, Bool.not_true, Bool.and_false, Bool.false_and, Bool.false_eq_true, if_false,
      hdoubled] at hruns
    rw [single, List.length_cons, hruns, singleRuns_nil]

/-! ### Reading scalars by their forms -/

/-- A form that is not that of a text makes no text of it. --/
theorem ne_str_of_readScalar {tag : Tag} {text : String} {v : Scalar}
    (htag : tag ∈ [.bool, .null, .int, .float, (.timestamp : Tag)]) (h : readScalar tag text = .ok v) (s : String) :
    v ≠ .str s := by
  rintro rfl
  simp only [List.mem_cons, List.not_mem_nil, or_false] at htag
  rcases htag with rfl | rfl | rfl | rfl | rfl
  · obtain ⟨_, -, h⟩ := map_eq_ok.mp h
    cases h
  · cases h
  · obtain ⟨_, -, h⟩ := map_eq_ok.mp h
    cases h
  · obtain ⟨_, -, h⟩ := map_eq_ok.mp h
    cases h
  · simp only [readScalar, readTimestamp] at h
    split at h
    · cases h
    · split at h <;> cases h

namespace Builder

variable {b : Builder} {n : Nat} {es : List (Nat × Nat)}

/-- A mapping whose keys are texts is filled with its entries. --/
theorem fill_map (hnode : b.graph.node n = .map .map es)
    (hkeys : ∀ e ∈ es, ∃ s, b.graph.node e.1 = .scalar .str s) (weight : Nat) :
    b.fill weight n = b.makeEntries [] es >>= fun made => .ok (made.2.fillWith n (.mapping made.1)) := by
  have hentries : b.graph.entries n = es := by rw [Graph.entries, hnode]
  have hflatten : b.graph.flatten (4 * weight + 4) n = .ok b.graph := by
    refine Graph.flatten_eq (fun e he => ?_) (4 * weight + 2)
    rw [hentries] at he
    obtain ⟨s, hs⟩ := hkeys e he
    rw [hs]
    constructor <;> rintro ⟨⟩
  rw [fill, hnode]
  simp only [beq_self_eq_true, Bool.true_or, if_true, hflatten, ok_bind, hentries]
  rfl

theorem fillAll_cons {weight fuel : Nat} {rest : List Nat} (h : b.waiting = n :: rest) :
    b.fillAll weight (fuel + 1) = { b with waiting := rest }.fill weight n >>= fillAll weight fuel := by
  rw [fillAll, h]

end Builder

end Markup

/-! ### The line of a tag -/

namespace Manifest

/-- A manifest whose one image has a value as its tag. --/
def manifestOf (v : Value) : Value :=
  .mapping [(.str imagesKey, .list [.mapping [(.str tagKey, v)]])]

/-- The outline of such a manifest, for a scalar. --/
def outlineOf (tag : Markup.Tag) (text : String) : Outline :=
  .map none .map [(.scalar none .str imagesKey false,
    .seq none [.map none .map [(.scalar none .str tagKey false, .scalar none tag text false)]])]

/-- The lines of such a manifest up to the key of the tag. --/
def keyText : List Char :=
  "images:\n- newTag:".toList

/-- The lines of such a manifest, for the text that stands behind the key. --/
def lines (shown : List Char) : List Char :=
  keyText ++ ' ' :: shown ++ ['\n']

/-- The page up to the key of the tag. --/
def keyPage : Page :=
  ⟨keyText.reverse, 9, false, false, false⟩

variable {w : List Char} {tag : Markup.Tag} {text : String}

theorem write_outlineOf (tag : Markup.Tag) (text : String) : Outline.write {} none .root (outlineOf tag text) =
    Outline.writeWhole keyPage (some 2) .entry tag text.toList false := rfl

theorem choose_of_isTag (h : Tag.isTag w = true) (tag : Markup.Tag) :
    Style.choose tag w false false = if tag = .ofForm w then .plain else .single := by
  have hor := @choose_of_isPrintable w tag (Tag.arePrintable h) false
  by_cases htag : tag = .ofForm w
  · simp [Style.choose, htag, Tag.allowsPlain_eq h]
  · rw [if_neg htag]
    refine hor.resolve_left fun hplain => ?_
    have hne : (tag == .ofForm w) = false := beq_eq_false_iff_ne.mpr htag
    simp only [Style.choose, hne, Bool.false_and, Bool.false_eq_true, if_false] at hplain
    split at hplain <;> cases hplain

/-- What is written behind the key ends the text. --/
theorem text_of_wrote {shown : List Char} {q : Page} {column : Nat}
    (hq : Outline.writeWhole keyPage (some 2) .entry tag text.toList false = q)
    (h : Wrote keyPage q (keyPage.lead ++ shown) column false false) (hopen : q.openEnded = false) :
    (outlineOf tag text).text = lines shown := by
  have hline := h.trans (wrote_indent_of_text (n := 0) h.indenting)
  have hkey : keyPage.text = keyText := List.reverse_reverse keyText
  have hlead : keyPage.lead = [' '] := rfl
  rw [Outline.text, write_outlineOf, hq]
  simp only [openEnded_indent, hopen, Bool.false_eq_true, if_false]
  rw [hline.text, hkey, hlead, List.replicate_zero, lines, List.append_assoc]
  rfl

/-- With the tag of its form a text stands there as it is. --/
theorem text_of_form (h : Tag.isTag text.toList = true) :
    (outlineOf (.ofForm text.toList) text).text = lines text.toList := by
  have hword := Tag.isWord h
  have hchoose := choose_of_isTag h (.ofForm text.toList)
  rw [if_pos rfl] at hchoose
  have hshows : Outline.showsTag .plain (.ofForm text.toList) text.toList = true := by simp [Outline.showsTag]
  have hpage : Outline.writeWhole keyPage (some 2) .entry (.ofForm text.toList) text.toList false =
      keyPage.plain 4 true false text.toList := by
    rw [Outline.writeWhole]
    simp only [reduceCtorEq, decide_false, hchoose, hshows, if_true]
    rfl
  rw [plain_word hword] at hpage
  have hwrote := wrote_write keyPage (keyPage.lead ++ text.toList)
  exact text_of_wrote hpage ⟨hwrote.reversed, hwrote.column, rfl, rfl⟩ rfl

/-- As a text whose form is another one it stands between single quotes. --/
theorem text_of_quoted (h : Tag.isTag text.toList = true) (hform : .ofForm text.toList ≠ Markup.Tag.str) :
    (outlineOf .str text).text = lines ('\'' :: text.toList ++ ['\'']) := by
  have hword := Tag.isWord h
  have hquote := Tag.forall_mem_ne_quote h
  have hchoose := choose_of_isTag h .str
  rw [if_neg hform.symm] at hchoose
  have hpage : Outline.writeWhole keyPage (some 2) .entry .str text.toList false =
      keyPage.single 4 true text.toList := by
    rw [Outline.writeWhole]
    simp only [reduceCtorEq, decide_false, hchoose]
    rfl
  rw [single_word hword hquote] at hpage
  have hwrote := ((wrote_mark keyPage ['\'']).trans (wrote_write _ text.toList)).trans (wrote_closeMark _ ['\''])
  refine text_of_wrote hpage ⟨?_, hwrote.column, rfl, rfl⟩ rfl
  rw [hwrote.reversed]
  simp

/-! ### What the line is read as -/

def graphOf (tag : Markup.Tag) (text : String) : Graph :=
  #[.map .map [(1, 2)], .scalar .str imagesKey, .seq .seq [3], .map .map [(4, 5)], .scalar .str tagKey,
    .scalar tag text]

def builderOf (tag : Markup.Tag) (text : String) (cells : Cells) (made : List (Nat × Ref))
    (waiting : List Nat := []) : Builder :=
  { graph := graphOf tag text, cells, made, waiting }

/-- The cells that are made before the one of the tag, for the cell of the entry. --/
def cellsOf (entry : Cell) : Cells :=
  #[.mapping [(1, 2)], .scalar (.str imagesKey), .list [3], entry, .scalar (.str tagKey)]

/-- The document of such a manifest. --/
def documentOf (v : Scalar) : Document :=
  ⟨(cellsOf (.mapping [(4, 5)])).push (.scalar v), 0⟩

/-- There is no set in it. --/
theorem arranged_documentOf [Host] (v : Scalar) : (documentOf v).arranged = documentOf v := by
  simp [Document.arranged, documentOf, cellsOf, Cell.arranged]

theorem value_documentOf (v : Scalar) : (documentOf v).value = manifestOf (.scalar v) := rfl

/-- The builder when everything but the tag is made. --/
def beforeTag (tag : Markup.Tag) (text : String) : Builder :=
  builderOf tag text (cellsOf (.mapping [])) [(4, 4), (3, 3), (2, 2), (1, 1), (0, 0)]

/-- The builder when the tag is made, too. --/
def afterTag (tag : Markup.Tag) (text : String) (v : Scalar) : Builder :=
  { beforeTag tag text with
    cells := (cellsOf (.mapping [])).push (.scalar v)
    made := (5, 5) :: (beforeTag tag text).made
    nan := if v == .float .nan && isNanText text then some 5 else none }

section

variable (htag : tag ∈ [.str, .bool, .null, .int, .float, (.timestamp : Markup.Tag)])
include htag

theorem make_tag (text : String) :
    (beforeTag tag text).make 5 = readScalar tag text >>= fun v => .ok (5, afterTag tag text v) := by
  have hmake : (beforeTag tag text).make 5 =
      (beforeTag tag text).addScalar 5 >>= fun x => .ok (x.1, x.2.note 5 x.1) := by
    simp only [List.mem_cons, List.not_mem_nil, or_false] at htag
    rcases htag with rfl | rfl | rfl | rfl | rfl | rfl <;> rfl
  have htext : Builder.scalarText (beforeTag tag text).graph ((beforeTag tag text).graph.size + 1) 5 = .ok text := rfl
  have hnode : (beforeTag tag text).graph.node 5 = .scalar tag text := rfl
  rw [hmake, Builder.addScalar, htext, ok_bind, hnode, Builder.scalar_eq, readText_whole]
  cases readScalar tag text with
  | error f => rfl
  | ok v =>
    simp only [ok_bind, afterTag]
    cases v == .float .nan && isNanText text <;> rfl

omit htag in
theorem fillAll_builderOf (weight fuel : Nat) (cells : Cells) (made : List (Nat × Ref)) (n : Nat) :
    (builderOf tag text cells made [n]).fillAll weight (fuel + 1) =
      (builderOf tag text cells made).fill weight n >>= Builder.fillAll weight fuel :=
  Builder.fillAll_cons rfl

/-- The graph of such a manifest stands for the document of the scalar that the text is read as. --/
theorem document_graphOf (text : String) : (graphOf tag text).document 0 = (readScalar tag text).map documentOf := by
  generalize hweight : (graphOf tag text).weight = weight
  -- The root waits for its value, this for the one item, and the item for the text; only the text may be unreadable.
  have hmake : ({ graph := graphOf tag text } : Builder).make 0 =
      .ok (0, builderOf tag text #[.mapping []] [(0, 0)] [0]) := rfl
  have hroot : (builderOf tag text #[.mapping []] [(0, 0)]).fill weight 0 =
      .ok (builderOf tag text #[.mapping [(1, 2)], .scalar (.str imagesKey), .list []] [(2, 2), (1, 1), (0, 0)] [2]) := by
    rw [@Builder.fill_map _ 0 [(1, 2)] rfl (List.forall_mem_singleton.mpr ⟨imagesKey, rfl⟩)]
    rfl
  have hlist : (builderOf tag text #[.mapping [(1, 2)], .scalar (.str imagesKey), .list []]
      [(2, 2), (1, 1), (0, 0)]).fill weight 2 = .ok (builderOf tag text
        #[.mapping [(1, 2)], .scalar (.str imagesKey), .list [3], .mapping []] [(3, 3), (2, 2), (1, 1), (0, 0)] [3]) :=
    rfl
  have hentry : (builderOf tag text #[.mapping [(1, 2)], .scalar (.str imagesKey), .list [3], .mapping []]
      [(3, 3), (2, 2), (1, 1), (0, 0)]).fill weight 3 =
        readScalar tag text >>= fun v => .ok ((afterTag tag text v).fillWith 3 (.mapping [(4, 5)])) := by
    rw [@Builder.fill_map _ 3 [(4, 5)] rfl (List.forall_mem_singleton.mpr ⟨tagKey, rfl⟩)]
    change ((beforeTag tag text).make 5 >>= _) >>= _ = _
    rw [make_tag htag]
    cases readScalar tag text <;> rfl
  have hfuel : (graphOf tag text).size + 1 = 7 := rfl
  rw [Graph.document, hmake, ok_bind, hweight, hfuel]
  simp only [fillAll_builderOf weight 6, hroot, ok_bind, fillAll_builderOf weight 5, hlist, fillAll_builderOf weight 4,
    hentry]
  cases readScalar tag text <;> rfl

end

theorem isLegible_outlineOf (h : Tag.isTag text.toList = true) (hother : ∀ t, tag ≠ .other t) :
    Outline.IsLegible false (outlineOf tag text) := by
  have hclear : ∀ {s : String} {k : Markup.Tag} (simple : Bool), ArePrintable s.toList → s.toList ≠ [] →
      Outline.IsClearText simple k s false := fun simple hs hne => isClear_of_isPrintable hs (absurd · hne) simple
  have hnone : Outline.IsAnchor none := by
    rintro name ⟨⟩
  have hstr : ∀ t, Markup.Tag.str ≠ .other t := by
    rintro t ⟨⟩
  have hmap : ∀ t, Markup.Tag.map ≠ .other t := by
    rintro t ⟨⟩
  have himages : Outline.IsLegible true (.scalar none .str imagesKey false) :=
    ⟨hnone, hstr, hclear true (by decide) (by decide)⟩
  have hkey : Outline.IsLegible true (.scalar none .str tagKey false) :=
    ⟨hnone, hstr, hclear true (by decide) (by decide)⟩
  have hvalue : Outline.IsLegible false (.scalar none tag text false) :=
    ⟨hnone, hother, hclear false (Tag.arePrintable h) (Tag.isWord h).ne_nil⟩
  have hentry : Outline.IsLegible false
      (.map none .map [(.scalar none .str tagKey false, .scalar none tag text false)]) :=
    ⟨hnone, hmap, rfl, hkey, hvalue, trivial⟩
  exact ⟨hnone, hmap, rfl, himages, ⟨hnone, hentry, trivial⟩, trivial⟩

theorem fits_outlineOf (h : Tag.isTag text.toList = true) (tag : Markup.Tag) :
    Outline.Fits none .root true (outlineOf tag text) := by
  have hfits : ∀ {s : String} {k : Markup.Tag} (n : Nat) (place : Outline.Place), ArePrintable s.toList →
      Outline.FitsText (some n) place none k s false := by
    intro s k n place hs hdouble
    rcases @choose_of_isPrintable s.toList k hs (place = .simpleKey) with hstyle | hstyle
    · cases hstyle.symm.trans hdouble
    · cases hstyle.symm.trans hdouble
  refine ⟨hfits _ _ (by decide), ⟨?_, trivial⟩, trivial⟩
  exact ⟨hfits _ _ (by decide), hfits _ _ (Tag.arePrintable h), trivial⟩

/-- The lines for a tag are few. --/
theorem length_lines_le (h : Tag.isTag w = true) : (lines w).length ≤ 256 := by
  have hkey : keyText.length = 17 := rfl
  simp only [lines, List.length_append, List.length_cons, List.length_nil, hkey]
  cases w with
  | nil => cases h
  | cons c rest =>
    simp only [Tag.isTag, Bool.and_eq_true, decide_eq_true_eq] at h
    rw [List.length_cons]
    omega

/-- Without quotes the line of a tag is read as the scalar that the form of the tag makes of it. --/
theorem decode_lines [FairHost] (h : Tag.isTag text.toList = true) (path : String) :
    decode path .standard (Text.encode (lines text.toList)) =
      ((readScalar (.ofForm text.toList) text).mapError (failure path .standard .complete)).map documentOf := by
  have htag := Tag.ofForm_mem h
  have hlegible : Outline.IsLegible false (outlineOf (.ofForm text.toList) text) := by
    refine isLegible_outlineOf h fun t ht => ?_
    rw [ht] at htag
    simp at htag
  have htext := text_of_form h
  have hordinary := Outline.areOrdinary_text hlegible
  have hscope : (outlineOf (.ofForm text.toList) text).scope [] = some [] := rfl
  have hread := parse_text hlegible (fits_outlineOf h _) hscope
  have hgraph : Graph.ofTree (outlineOf (.ofForm text.toList) text).tree = (graphOf (.ofForm text.toList) text, 0) := rfl
  rw [hgraph, document_graphOf htag, htext] at hread
  rw [htext] at hordinary
  have hroom : Host.reads ⟨lines text.toList, .complete⟩ = true := FairHost.reads_of_length_le (length_lines_le h)
  unfold decode
  simp only [ofBytes_encode_of_areOrdinary hordinary, read_of_reads hroom, hread]
  cases readScalar (.ofForm text.toList) text with
  | error f => rfl
  | ok v =>
    simp only [map_ok, mapError_ok, Option.map_some, arranged_documentOf]
    rfl

theorem writes_manifestOf [FairHost] (text : String) : Host.writes (.ofValue (manifestOf (.str text))) = true :=
  FairHost.writes_of_size_le (show 6 ≤ 256 by decide)

theorem encode_manifestOf [FairHost] (h : Tag.isTag text.toList = true) : encode (.ofValue (manifestOf (.str text))) =
    .ok (if .ofForm text.toList = Markup.Tag.str then Text.encode (lines text.toList)
      else Text.encode (lines ('\'' :: text.toList ++ ['\'']))) := by
  have houtline : Outline.ofDocument (.ofValue (manifestOf (.str text))) = .ok (outlineOf .str text) := rfl
  rw [encode, Markup.write, if_pos (writes_manifestOf text), render, houtline, ok_bind, pure_eq_ok, map_ok]
  by_cases hform : .ofForm text.toList = Markup.Tag.str
  · have htext := text_of_form h
    rw [hform] at htext
    rw [if_pos hform, htext]
  · rw [if_neg hform, text_of_quoted h hform]

theorem isPlain_singleton {key : String} {v : Value} (hkey : ArePrintable key.toList) (hv : v.IsPlain) :
    (Value.mapping [(.str key, v)]).IsPlain :=
  ⟨⟨⟨.str key, rfl, hkey⟩, hv, trivial⟩, List.pairwise_singleton _ _⟩

theorem isPlain_manifestOf (h : Tag.isTag text.toList = true) : (manifestOf (.str text)).IsPlain :=
  isPlain_singleton (by decide) ⟨isPlain_singleton (by decide) (Tag.arePrintable h), trivial⟩

open Files in
/-- A text that is accepted as a tag survives in a manifest. It is written on the line of its key without quotes if its
    form is that of a text, that is, if the line is then read as this text; any other form is that of a truth value,
    null, a number or a timestamp, and the tag stands between single quotes. So the content is read as the same text
    again, and whoever saves the manifest to a file finds this content there, and loads the text. Saving succeeds with
    room for a temporary file. --/
theorem tag_survives [FairHost] {v : String} {t : Tag} (h : Tag.ofValue (.str v) = .ok t) :
    let form := Markup.Tag.ofForm v.toList
    let plain := Text.encode (lines v.toList)
    let content := if form = .str then plain else Text.encode (lines ('\'' :: v.toList ++ ['\'']))
    (form ≠ .str → form ∈ [.bool, .null, .int, .float, .timestamp]) ∧
    (form = .str ↔ ∀ path, (decode path .standard plain).map Document.value = .ok (manifestOf (.str v))) ∧
    encode (.ofValue (manifestOf (.str v))) = .ok content ∧
    (∀ path, (decode path .standard content).map Document.value = .ok (manifestOf (.str v))) ∧
    ∀ {tree : FileTree} {path}, tree.HasNames → tree.isFile path = .ok true →
      (tree.HasRoom (tree.resolve path) →
        ∃ after, save none tree path (.ofValue (manifestOf (.str v))) = ⟨.ok (tree.resolve path), after, []⟩) ∧
      ∀ l after, save none tree path (.ofValue (manifestOf (.str v))) = ⟨.ok l, after, []⟩ →
        contentOf none after path = .ok content ∧
        (load none after path).map Document.value = .ok (manifestOf (.str v)) := by
  intro form plain content
  obtain rfl : v = t.text := Scalar.str.inj (Value.scalar.inj (Tag.ofValue_eq_ok.mp h))
  have htag : Tag.isTag t.text.toList = true := t.valid
  have hform := Tag.ofForm_mem htag
  have hencode : encode (.ofValue (manifestOf (.str t.text))) = .ok content := encode_manifestOf htag
  have hdecode : ∀ path, (decode path .standard content).map Document.value = .ok (manifestOf (.str t.text)) := by
    intro path
    obtain ⟨bytes, d, hbytes, hd, hvalue⟩ :=
      decode_encode_ofValue (isPlain_manifestOf htag) nofun (writes_manifestOf _) path
    obtain rfl := Except.ok.inj (hencode.symm.trans hbytes)
    rw [hd, map_ok, hvalue]
  refine ⟨fun hne => ?_, ⟨fun hstr path => ?_, fun hread => ?_⟩, hencode, hdecode, fun {tree path} hnames hfile => ?_⟩
  · exact (List.mem_cons.mp hform).resolve_left hne
  · have hread : readScalar form t.text = .ok (.str t.text) := by rw [hstr]; rfl
    rw [decode_lines htag, hread, mapError_ok, map_ok, map_ok, value_documentOf]
    rfl
  · -- The form of another scalar makes that scalar of the text, or nothing at all.
    by_contra hne
    have hread := hread ""
    rw [decode_lines htag] at hread
    obtain ⟨d, hd, hvalue⟩ := map_eq_ok.mp hread
    obtain ⟨w, hw, rfl⟩ := map_eq_ok.mp hd
    obtain rfl : w = .str t.text := by
      rw [value_documentOf] at hvalue
      simpa [manifestOf, Value.str] using hvalue
    exact ne_str_of_readScalar ((List.mem_cons.mp hform).resolve_left hne) (mapError_eq_ok.mp hw) t.text rfl
  · obtain ⟨hnull, l, old, mode, hl, hx⟩ := isFile_eq_ok_true hfile
    refine ⟨fun hroom => ?_, fun m after hsave => ?_⟩
    · rw [FileTree.resolve_of_find hl] at hroom ⊢
      obtain ⟨mode', hsave⟩ := save_of_find hnames hnull hl hx hroom hencode
      exact ⟨_, hsave⟩
    · obtain ⟨bytes, hbytes, rfl⟩ := tree_of_save hnames hnull hl hx hsave
      obtain rfl := Except.ok.inj (hencode.symm.trans hbytes)
      have hcontent := @contentOf_put tree path l old content mode mode hnull hl hx
      refine ⟨hcontent, ?_⟩
      rw [load, hcontent, ok_bind, hdecode]

open Files in
/-- A version that looks like a number stands between single quotes, and is a text for whoever loads it. --/
theorem tag_survives_number :
    let _ : FairHost := .ample
    let v := "1.10"
    let tree : FileTree := { nodes := [(["k.yaml"], .file [] 0o644)] }
    let path : Files.Path := ⟨.here, ["k.yaml"]⟩
    Markup.Tag.ofForm v.toList = .float ∧ ∃ after,
      save none tree path (.ofValue (manifestOf (.str v))) = ⟨.ok ["k.yaml"], after, []⟩ ∧
      contentOf none after path = .ok (Text.encode "images:\n- newTag: '1.10'\n".toList) ∧
      (load none after path).map Document.value = .ok (manifestOf (.str v)) := by
  intro host v tree path
  have hform : Markup.Tag.ofForm v.toList = .float := by decide +kernel
  have htag : Tag.ofValue (.str v) = .ok ⟨v, by decide +kernel⟩ := Tag.ofValue_eq_ok.mpr rfl
  have hnames : tree.HasNames := nofun
  obtain ⟨-, -, -, -, hfile⟩ := tag_survives htag
  obtain ⟨hsucceeds, hsaved⟩ := @hfile tree path hnames (by decide +kernel)
  obtain ⟨after, hsave⟩ := hsucceeds ⟨by decide +kernel, by decide +kernel, 0, by decide, by decide +kernel⟩
  obtain ⟨hcontent, hload⟩ := hsaved _ after hsave
  have hplace : tree.resolve path = ["k.yaml"] := by decide +kernel
  rw [hplace] at hsave
  have hlines : lines ('\'' :: v.toList ++ ['\'']) = "images:\n- newTag: '1.10'\n".toList := by decide +kernel
  rw [if_neg (by rw [hform]; decide), hlines] at hcontent
  exact ⟨hform, after, hsave, hcontent, hload⟩

end Manifest

end Retag

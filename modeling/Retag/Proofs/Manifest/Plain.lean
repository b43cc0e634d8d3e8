import Retag.Proofs.Document.Plain
import Retag.Proofs.Manifest.Reread
import Retag.Proofs.Manifest.Saved
import Retag.Proofs.Markup.Scalar

/-! Plain documents written to a manifest and read from it. Every scalar of a plain document is written plain or between
    single quotes, and read back with its kind, so the document is read back as it was. -/

namespace Retag

open Markup

/-! ### Plain scalars -/

namespace Markup

variable {cs : List Char} {tag : Tag} {v : Scalar}

theorem not_isBreak_of_isPrintable {x : Char} (h : IsPrintable x) : isBreak x = false := by
  cases hb : isBreak x
  · rfl
  · obtain ⟨h₁, h₂⟩ := h
    rcases isBreak_cases hb with rfl | rfl | rfl | rfl
    · exact absurd h₁ (by decide)
    · exact absurd h₂ (by decide)
    · exact absurd h₂ (by decide)
    · exact absurd h₂ (by decide)

theorem Style.hasNeighbours_eq_false {p q : Char → Bool} (h : (∀ x ∈ cs, p x = false) ∨ ∀ x ∈ cs, q x = false) :
    hasNeighbours p q cs = false := by
  induction cs with
  | nil => rfl
  | cons a cs ih =>
    cases cs with
    | nil => rfl
    | cons b cs =>
      rw [hasNeighbours, ih (h.imp (fun h x hx => h x (List.mem_cons_of_mem _ hx)) fun h x hx =>
        h x (List.mem_cons_of_mem _ hx)), Bool.or_false, Bool.and_eq_false_iff]
      exact h.imp (fun h => h a List.mem_cons_self) fun h => h b (List.mem_cons_of_mem _ List.mem_cons_self)

theorem isTidy_of_isPrintable (h : ArePrintable cs) : Style.isTidy cs = true := by
  have hbreak : ∀ x ∈ cs, isBreak x = false := fun x hx => not_isBreak_of_isPrintable (h x hx)
  simp only [Style.isTidy, Style.hasNeighbours_eq_false (Or.inr hbreak), Bool.not_false, Bool.true_and,
    List.all_eq_true]
  exact areOrdinary_of_ascii h

theorem isMultiline_of_isPrintable (h : ArePrintable cs) : Style.isMultiline cs = false := by
  simpa [Style.isMultiline] using fun x hx => not_isBreak_of_isPrintable (h x hx)

/-- A text of printable ASCII is written plain or between single quotes. --/
theorem choose_of_isPrintable (h : ArePrintable cs) (simple : Bool) :
    Style.choose tag cs false simple = .plain ∨ Style.choose tag cs false simple = .single := by
  have hbreak : ∀ x ∈ cs, isBreak x = false := fun x hx => not_isBreak_of_isPrintable (h x hx)
  have hsingle : Style.allowsSingle cs = true := by
    simp [Style.allowsSingle, isTidy_of_isPrintable h, Style.hasNeighbours_eq_false (Or.inl hbreak)]
  simp only [Style.choose, hsingle, isMultiline_of_isPrintable h, Bool.and_false, Bool.not_false, Bool.and_self,
    if_true, Bool.false_eq_true, if_false]
  split
  · exact Or.inl rfl
  · exact Or.inr rfl

/-- It can be read again. --/
theorem isClear_of_isPrintable (h : ArePrintable cs) (hne : cs = [] → tag = .str) (simple : Bool) :
    Outline.IsClear simple tag cs false := by
  refine Outline.isClear_of_not_literal simple hne fun _ x hx => ?_
  rintro rfl
  exact absurd (h _ hx).2 (by decide)

/-- A plain scalar is written with printable ASCII, and read back. --/
theorem scalarForm_of_isPlain (h : v.IsPlain) : ∃ (tag : Tag) (text : String), scalarForm v = .ok (tag, text, false) ∧
    ArePrintable text.toList ∧ (text.toList = [] → tag = .str) ∧ readText tag text = .ok v := by
  cases v with
  | null => exact ⟨_, _, rfl, by decide, by decide, rfl⟩
  | bool b => cases b <;> exact ⟨_, _, rfl, by decide, by decide, rfl⟩
  | int n =>
    obtain ⟨s, hs⟩ := writeInt?_isSome h
    obtain ⟨htext, -⟩ := writeInt?_eq_some hs
    refine ⟨.int, s, scalarForm_of_writeInt?_eq_some hs, fun x hx => ?_, fun hempty => ?_, ?_⟩
    · have hdigit : ∀ y, y.isDigit = true → IsPrintable y :=
        fun y => Number.forall_digit (P := IsPrintable) (by decide)
      rw [htext] at hx
      rcases List.mem_append.mp hx with hx | hx
      · split at hx
        · obtain rfl := List.mem_singleton.mp hx
          decide
        · cases hx
      · exact hdigit x (Number.isDigit_of_mem_toDigits hx)
    · rw [htext, List.append_eq_nil_iff] at hempty
      exact absurd hempty.2 Nat.toDigits_ne_nil
    · rw [readText_whole, readScalar, readInt_writeInt hs, map_ok]
  | str s => exact ⟨.str, s, rfl, h, fun _ => rfl, rfl⟩
  | _ => cases h

end Markup

/-! ### Plain documents -/

namespace Cells

variable {cells : Cells} {r : Ref} {v : Value}

theorem HoldsAll.mem : {rs : List Ref} → {items : List Value} → HoldsAll cells rs items → Value.ArePlain items →
    ∀ {q : Ref}, q ∈ rs → ∃ w, Holds cells q w ∧ w.IsPlain
  | _, _, .nil, _, _, hq => absurd hq List.not_mem_nil
  | _, _, .cons h hs, ⟨hv, hitems⟩, q, hq => by
    rcases List.mem_cons.mp hq with rfl | hq
    · exact ⟨_, h, hv⟩
    · exact hs.mem hitems hq

theorem HoldsEntries.mem : {es : List (Ref × Ref)} → {entries : List (Value × Value)} →
    HoldsEntries cells es entries → Value.EntriesArePlain entries → ∀ {q : Ref}, q ∈ es.flatMap (fun e => [e.1, e.2]) →
    ∃ w, Holds cells q w ∧ w.IsPlain
  | _, _, .nil, _, _, hq => absurd hq List.not_mem_nil
  | _, _, .cons hk hv hs, ⟨⟨w, hkey, hw⟩, hvalue, hentries⟩, q, hq => by
    rw [List.flatMap_cons] at hq
    rcases List.mem_append.mp hq with hq | hq
    · rcases List.mem_pair.mp hq with rfl | rfl
      · subst hkey
        exact ⟨_, hk, hw⟩
      · exact ⟨_, hv, hvalue⟩
    · exact hs.mem hentries hq

/-- The keys of entries that hold plain entries are plain scalars, and apart. --/
theorem HoldsEntries.keys : {es : List (Ref × Ref)} → {entries : List (Value × Value)} →
    HoldsEntries cells es entries → Value.EntriesArePlain entries →
    entries.Pairwise (fun e f => ¬Value.SameKey e.1 f.1) →
    (∀ e ∈ es, ∃ w, cells.get e.1 = .scalar w ∧ w.IsPlain) ∧ es.Pairwise fun e f => cells.IsApart e.1 f.1
  | _, _, .nil, _, _ => ⟨nofun, .nil⟩
  | _, _, .cons hk _ hs, ⟨⟨w, hkey, hw⟩, _, hentries⟩, hdistinct => by
    subst hkey
    obtain ⟨hfirst, hrest⟩ := List.pairwise_cons.mp hdistinct
    obtain ⟨hscalars, hapart⟩ := hs.keys hentries hrest
    obtain ⟨hw'⟩ := hk
    refine ⟨fun e he => ?_, List.pairwise_cons.mpr ⟨fun e he => ?_, hapart⟩⟩
    · rcases List.mem_cons.mp he with rfl | he
      · exact ⟨w, hw', hw⟩
      · exact hscalars e he
    · obtain ⟨f, hf, hfe⟩ := hs.exists_key e he
      obtain ⟨u, hu, -⟩ := hscalars e he
      have hne := hfirst f hf
      rw [← Holds.unique (.scalar hu) hfe] at hne
      refine ⟨w, u, hw', hu, Bool.not_eq_true _ ▸ hne, ?_⟩
      rintro rfl
      exact hne hw.same_self

/-- The parts of a cell that holds a plain value hold plain values. --/
theorem Holds.part (h : Holds cells r v) (hv : v.IsPlain) {q : Ref} (hq : q ∈ parts (cells.get r)) :
    ∃ w, Holds cells q w ∧ w.IsPlain := by
  cases h with
  | scalar hc =>
    rw [hc] at hq
    cases hq
  | list hc hs =>
    rw [hc] at hq
    exact hs.mem hv hq
  | mapping hc hs =>
    rw [hc] at hq
    exact hs.mem hv.1 hq

/-- All cells that can be reached from one that holds a plain value hold plain values. --/
theorem Holds.all {P : Ref → Prop} (h : Holds cells r v) (hv : v.IsPlain)
    (hP : ∀ s w, Holds cells s w → w.IsPlain → P s) : cells.All P r := by
  intro s hs
  have hheld : ∃ w, Holds cells s w ∧ w.IsPlain := by
    induction hs with
    | refl => exact ⟨v, h, hv⟩
    | tail _ hq ih =>
      obtain ⟨w, hw, hplain⟩ := ih
      exact hw.part hplain hq
  obtain ⟨w, hw, hplain⟩ := hheld
  exact hP s w hw hplain

theorem Holds.isOrdered (h : Holds cells r v) : IsOrdered cells r := by
  intro members hset
  cases h with
  | scalar hc => cases hc.symm.trans hset
  | list hc _ => cases hc.symm.trans hset
  | mapping hc _ => cases hc.symm.trans hset

theorem Holds.isNoPair (h : Holds cells r v) : IsNoPair cells r := by
  intro a b hab
  cases h with
  | scalar hc => cases hc.symm.trans hab
  | list hc _ => cases hc.symm.trans hab
  | mapping hc _ => cases hc.symm.trans hab

theorem isClearKey_of_isPlain {w : Scalar} (h : cells.get r = .scalar w) (hw : w.IsPlain) : IsClearKey cells r := by
  obtain ⟨tag, text, hform, hprintable, hempty, -⟩ := scalarForm_of_isPlain hw
  refine ⟨w, h, fun tag' text' literal' hform' _ => ?_⟩
  cases hform.symm.trans hform'
  exact isClear_of_isPrintable hprintable hempty true

theorem Holds.isClearCell (h : Holds cells r v) (hv : v.IsPlain) : IsClearCell cells r := by
  unfold IsClearCell
  cases h with
  | scalar hc =>
    obtain ⟨tag, text, hform, hprintable, hempty, -⟩ := scalarForm_of_isPlain hv
    rw [hc]
    intro tag' text' literal' hform'
    cases hform.symm.trans hform'
    exact isClear_of_isPrintable hprintable hempty false
  | list hc _ =>
    rw [hc]
    trivial
  | mapping hc hs =>
    rw [hc]
    intro e he
    obtain ⟨w, hw, hplain⟩ := (hs.keys hv.1 hv.2).1 e he
    exact isClearKey_of_isPlain hw hplain

theorem Holds.isSoundCell (h : Holds cells r v) (hv : v.IsPlain) : IsSoundCell cells r := by
  unfold IsSoundCell
  cases h with
  | scalar hc =>
    obtain ⟨tag, text, hform, -, -, hread⟩ := scalarForm_of_isPlain hv
    rw [hc]
    intro tag' text' literal' hform'
    cases hform.symm.trans hform'
    exact hread
  | list hc _ =>
    rw [hc]
    trivial
  | mapping hc hs =>
    rw [hc]
    obtain ⟨hscalars, hapart⟩ := hs.keys hv.1 hv.2
    refine ⟨fun e he => ?_, hapart⟩
    obtain ⟨w, hw, -⟩ := hscalars e he
    rw [hw]
    rfl

theorem Holds.fitsAnywhere (h : Holds cells r v) (hv : v.IsPlain) : FitsAnywhere cells r := by
  intro w tag' text' literal' simple hw hform' hdouble
  cases h with
  | scalar hc =>
    cases hc.symm.trans hw
    obtain ⟨tag, text, hform, hprintable, -, -⟩ := scalarForm_of_isPlain hv
    cases hform.symm.trans hform'
    rcases @choose_of_isPrintable _ tag' hprintable simple with hstyle | hstyle
    · cases hstyle.symm.trans hdouble
    · cases hstyle.symm.trans hdouble
  | list hc _ => cases hc.symm.trans hw
  | mapping hc _ => cases hc.symm.trans hw

end Cells

theorem Markup.isStable_ofValue {v : Value} (h : v.IsPlain) : IsStable (Document.ofValue v) where
  clear := (Value.holds_ofValue h).all h fun _ _ hs hw => hs.isClearCell hw
  sound := (Value.holds_ofValue h).all h fun _ _ hs hw => hs.isSoundCell hw
  fits := fun o ho => by
    have hpairs : (Document.ofValue v).cells.All (IsNoPair (Document.ofValue v).cells) (Document.ofValue v).root :=
      (Value.holds_ofValue h).all h fun _ _ hs _ => hs.isNoPair
    obtain ⟨names, hshows⟩ := Outline.shows_of_ofDocument ho hpairs
    exact hshows.fits ((Value.holds_ofValue h).all h fun _ _ hs hw => hs.fitsAnywhere hw)

namespace Manifest

open Files

/-- A plain document can be written if the stack has room for it. --/
theorem encode_ofValue [Host] {v : Value} (h : v.IsPlain) (hwrites : Host.writes (.ofValue v) = true) :
    ∃ bytes, encode (.ofValue v) = .ok bytes := by
  cases hencode : encode (.ofValue v) with
  | ok bytes => exact ⟨bytes, rfl⟩
  | error why =>
    obtain ⟨r, hr, n, hn, hlong⟩ : (Document.ofValue v).HoldsLongNumber := by
      cases encode_eq_error_iff.mp hencode with
      | stackFull hfull => cases hfull.symm.trans hwrites
      | longNumber _ hl => exact hl
    have hsafe : (Document.ofValue v).cells.All (fun s => ¬(Document.ofValue v).cells.IsLong s)
        (Document.ofValue v).root := by
      refine (Value.holds_ofValue h).all h fun s w hs hw => ?_
      rintro ⟨m, hm, hlong⟩
      cases hs with
      | scalar hc =>
        cases hm.symm.trans hc
        obtain ⟨s, hs⟩ := writeInt?_isSome hw
        cases hlong.symm.trans hs
      | list hc => cases hm.symm.trans hc
      | mapping hc => cases hm.symm.trans hc
    exact absurd ⟨n, hn, hlong⟩ (hsafe r hr)

/-- What is written for a plain value other than null is read as that value. --/
theorem decode_encode_ofValue [FairHost] {v : Value} (h : v.IsPlain) (hnull : v ≠ .null)
    (hwrites : Host.writes (.ofValue v) = true) (path : String) :
    ∃ bytes d, encode (.ofValue v) = .ok bytes ∧ decode path .standard bytes = .ok d ∧ d.value = v := by
  have hholds := Value.holds_ofValue h
  have hroot : (Document.ofValue v).isNull = false := by
    rw [Document.isNull, beq_eq_false_iff_ne]
    exact fun hc => hnull (hholds.unique (.scalar hc))
  obtain ⟨bytes, hbytes⟩ := encode_ofValue h hwrites
  obtain ⟨d, hd, hmirrors⟩ := decode_of_encode hbytes (isStable_ofValue h) hroot path
  -- There is no set in the document, so nothing is arranged.
  have hordered : (Document.ofValue v).cells.All (Document.ofValue v).cells.IsOrdered (Document.ofValue v).root :=
    hholds.all h fun _ _ hs _ => hs.isOrdered
  obtain ⟨R, hR, hagrees⟩ := (hmirrors.arranged hordered).agrees
  exact ⟨bytes, d.arranged, hbytes, hd, (hholds.agrees hagrees hR).value⟩

/-- A plain value other than null, however large and as deep as the stack has room for, that is saved to a file beside
    which there is room is loaded as that value. --/
theorem load_save_ofValue [FairHost] {v : Value} {t : FileTree} {path : Path} (h : v.IsPlain) (hnull : v ≠ .null)
    (hwrites : Host.writes (.ofValue v) = true) (ht : t.HasNames) (hfile : t.isFile path = .ok true)
    (hroom : t.HasRoom (t.resolve path)) :
    ∃ t' d, save none t path (.ofValue v) = ⟨.ok (t.resolve path), t', []⟩ ∧ load none t' path = .ok d ∧
      d.value = v := by
  obtain ⟨hpath, l, content, mode, hl, hx⟩ := isFile_eq_ok_true hfile
  obtain ⟨bytes, d, hbytes, hd, hvalue⟩ := decode_encode_ofValue h hnull hwrites path.text
  rw [FileTree.resolve_of_find hl] at hroom ⊢
  obtain ⟨mode', hsave⟩ := save_of_find ht hpath hl hx hroom hbytes
  refine ⟨_, d, hsave, ?_, hvalue⟩
  simp only [load, contentOf_put hpath hl hx, ok_bind, hd]

/-- Numbers in quotes stay texts, and the order of the keys stays, too. --/
theorem load_save_ofValue_version :
    let _ : FairHost := .ample
    let t : FileTree := { nodes := [(["k.yaml"], .file [] 0o644)] }
    let v : Value := .mapping [(.scalar (.str "tag"), .list [.scalar (.str "1.10"), .scalar .null]),
      (.scalar (.int 7), .scalar (.bool true))]
    ∃ t' d, save none t ⟨.here, ["k.yaml"]⟩ (.ofValue v) = ⟨.ok ["k.yaml"], t', []⟩ ∧
      load none t' ⟨.here, ["k.yaml"]⟩ = .ok d ∧ d.value = v := by
  intro host t v
  have hplain : ∀ w : Scalar, w.IsPlain → (Value.scalar w).IsPlain := fun w hw => hw
  have hv : v.IsPlain :=
    ⟨⟨⟨_, rfl, by decide⟩, ⟨hplain _ (by decide), hplain _ (by decide), trivial⟩, ⟨_, rfl, by decide⟩,
      hplain _ (by decide), trivial⟩, List.pairwise_pair.mpr nofun⟩
  have hroom : t.HasRoom ["k.yaml"] := ⟨by decide +kernel, by decide +kernel, 0, by decide, by decide +kernel⟩
  exact load_save_ofValue hv nofun rfl nofun (by decide +kernel) hroom

/-- A file whose name is so long that a temporary file's would be too long is not written. --/
theorem save_of_long_name [Host] {name : String} {d : Document} (hsize : name.utf8ByteSize ≤ maxName)
    (hlong : maxName < name.utf8ByteSize + 14) (hnull : '\x00' ∉ name.toList) :
    let t : FileTree := { nodes := [([name], .file [] 0o644)] }
    t.isFile ⟨.here, [name]⟩ = .ok true ∧
      save none t ⟨.here, [name]⟩ d = ⟨.error (.refused (.fileError name .nameTooLong)), t, []⟩ := by
  intro t
  have hnull : (Files.Path.mk .here [name]).hasNull = false := by simpa [Path.hasNull] using hnull
  have htext : (Files.Path.mk .here [name]).text = name := by simp [Path.text]
  have hname : FileTree.IsName name := by
    refine ⟨?_, ?_, ?_, hsize⟩ <;> rintro rfl <;> revert hlong <;> decide
  have hnames : t.HasNames := fun _ hmem => absurd hmem List.not_mem_nil
  have hroot : t.get? [] = some .directory := by simp [FileTree.get?]
  have hget : t.get? [name] = some (.file [] 0o644) := by simp [FileTree.get?, t]
  have hfind : t.find ⟨.here, [name]⟩ = .ok [name] := by
    rw [FileTree.find, Path.byteCount, htext, if_neg (by simp only [maxName, maxPath] at *; omega)]
    exact FileTree.walk_of_leads (.down ⟨_, hroot, by simp⟩ hname hget (by simp) (.stop _)) (Nat.zero_le _)
  refine ⟨by simp [FileTree.isFile, hnull, hfind, hget], ?_⟩
  rw [save_of_long hnames hnull hfind (by simp [pathBytes, maxPath, maxName] at *; omega) (by simpa using hlong),
    refused, htext]

/-- A name of 245 bytes leaves no room for that of a temporary file; and a stack for 329 lists in each other has no room
    for 400. --/
theorem load_save_ofValue_no_room :
    (let _ : Host := .ample
      let name := String.ofList (List.replicate 245 'k')
      let t : FileTree := { nodes := [([name], .file [] 0o644)] }
      let v : Value := .list []
      v.IsPlain ∧ v ≠ .null ∧ t.HasNames ∧ t.isFile ⟨.here, [name]⟩ = .ok true ∧
        save none t ⟨.here, [name]⟩ (.ofValue v) = ⟨.error (.refused (.fileError name .nameTooLong)), t, []⟩) ∧
    let _ : Host := { Host.ample with writes := fun d => d.cells.size ≤ 329 }
    let t : FileTree := { nodes := [(["k.yaml"], .file [] 0o644)] }
    let v := (fun v => Value.list [v])^[399] (.list [])
    v.IsPlain ∧ v ≠ .null ∧ t.HasNames ∧ t.isFile ⟨.here, ["k.yaml"]⟩ = .ok true ∧
      t.HasRoom (t.resolve ⟨.here, ["k.yaml"]⟩) ∧
      (save none t ⟨.here, ["k.yaml"]⟩ (.ofValue v)).result = .error (.broken .stackFull) := by
  have hnames (name : String) : FileTree.HasNames { nodes := [([name], .file [] 0o644)] } :=
    fun _ hmem => absurd hmem List.not_mem_nil
  have hplain (n : Nat) : let v := (fun v => Value.list [v])^[n] (.list []); v.IsPlain ∧ v ≠ .null := by
    induction n with
    | zero => exact ⟨trivial, Value.noConfusion⟩
    | succ n ih =>
      rw [Function.iterate_succ_apply']
      exact ⟨⟨ih.1, trivial⟩, Value.noConfusion⟩
  constructor
  · intro host name t v
    obtain ⟨hfile, hsave⟩ : t.isFile ⟨.here, [name]⟩ = .ok true ∧ _ :=
      save_of_long_name (by decide +kernel) (by decide +kernel) (by decide +kernel)
    exact ⟨trivial, Value.noConfusion, hnames name, hfile, hsave⟩
  · intro host t v
    obtain ⟨hv, hnull⟩ := hplain 399
    have hroom : t.HasRoom ["k.yaml"] := ⟨by decide +kernel, by decide +kernel, 0, by decide, by decide +kernel⟩
    exact ⟨hv, hnull, hnames _, by decide +kernel, hroom, by decide +kernel⟩

end Manifest

end Retag

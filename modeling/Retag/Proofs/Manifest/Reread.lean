import Retag.Proofs.Host
import Retag.Proofs.Text.Encoding
import Retag.Proofs.Markup.Arranged
import Retag.Proofs.Markup.Ordinary

/-! Documents written and read again. If what is written for every cell of a document can be read again, the content
    that is written for the document is read as one that mirrors it, and the same is written for that one. -/

namespace Retag

variable {d d' : Document}

theorem Document.Agrees.isNull (h : d.Agrees d') : d.isNull = d'.isNull := by
  obtain ⟨R, hroot, hR⟩ := h
  have := hR _ _ hroot
  unfold Document.isNull
  cases hc : d.cells.get d.root <;> cases hc' : d'.cells.get d'.root <;> rw [hc, hc'] at this <;> cases this <;> rfl

namespace Markup

/-- Ordinary characters may stand in markup, and none of them is a carriage return. --/
theorem isMarkupChar_of_isOrdinary {x : Char} (h : Style.isOrdinary x = true) :
    Text.isMarkupChar x = true ∧ x ≠ '\r' := by
  refine ⟨?_, ?_⟩
  · simp only [Style.isOrdinary, Text.isMarkupChar, Bool.or_eq_true, Bool.and_eq_true, decide_eq_true_eq, bne_iff_ne,
      ne_eq, beq_iff_eq] at h ⊢
    rcases h with (rfl | h) | ⟨h, -⟩
    · exact Or.inl (Or.inl (Or.inl (Or.inl (Or.inl (Or.inl (Or.inr rfl))))))
    · exact Or.inl (Or.inl (Or.inl (Or.inl (Or.inr h))))
    · rcases h with ((h | h) | h) | h
      · exact Or.inl (Or.inl (Or.inl (Or.inr h)))
      · exact Or.inl (Or.inl (Or.inr h))
      · exact Or.inl (Or.inr h)
      · exact Or.inr h.1
  · rintro rfl
    cases h

/-- The cells of a document can be written and read again, and its texts where they stand. --/
structure IsStable (d : Document) : Prop where
  clear : d.cells.All (IsClearCell d.cells) d.root
  sound : d.cells.All (IsSoundCell d.cells) d.root
  fits : ∀ o, Outline.ofDocument d = .ok o → Outline.Fits none .root true o

theorem IsStable.isNoPair (h : IsStable d) : d.cells.All (IsNoPair d.cells) d.root := by
  intro r hr a b hc
  have := h.sound r hr
  rw [IsSoundCell, hc] at this
  exact this

/-- The text of an outline that can be read again is read as what the graph of its tree stands for. --/
theorem parse_text {o : Outline} {known : List String} (hlegible : Outline.IsLegible false o)
    (hfits : Outline.Fits none .root true o) (hscope : o.scope [] = some known) :
    parse ⟨o.text, .complete⟩ = ((Graph.ofTree o.tree).1.document (Graph.ofTree o.tree).2).map some := by
  obtain ⟨tail, htail, htokens⟩ := Outline.ofSource_text hlegible hfits
  rw [parse, htokens]
  simp only [Outline.ofTokens_tokens hlegible hscope htail, ok_bind]
  cases (Graph.ofTree o.tree).1.document (Graph.ofTree o.tree).2 <;> rfl

/-- The text of a document is read as a document that mirrors it. --/
theorem parse_of_render {text : List Char} (h : render d = .ok text) (hd : IsStable d) :
    AreOrdinary text ∧ ∃ d', parse ⟨text, .complete⟩ = .ok (some d') ∧ d'.Mirrors d := by
  simp only [render, bind_eq_ok, pure_eq_ok, Except.ok.injEq] at h
  obtain ⟨o, ho, rfl⟩ := h
  obtain ⟨names, hshows⟩ := Outline.shows_of_ofDocument ho hd.isNoPair
  have hlegible := hshows.isLegible hd.clear
  obtain ⟨ρ, hcopies, hlt, href⟩ := Graph.copies_of_shows hshows
  obtain ⟨d', hd', hmirrors⟩ := Graph.document_ok hcopies hlt (href.symm ▸ hd.sound)
  rw [href] at hmirrors
  refine ⟨Outline.areOrdinary_text hlegible, d', ?_, hmirrors⟩
  rw [parse_text hlegible (hd.fits o ho) hshows.scope, hd', map_ok]

theorem read_of_reads [Host] {s : Text.Source} (h : Host.reads s = true) :
    read s = (parse s).map fun d? => d?.map Document.arranged :=
  if_pos h

/-- What is written was laid out, with room for that on the stack. --/
theorem write_eq_ok_iff [Host] {text : List Char} :
    write d = .ok text ↔ Host.writes d = true ∧ render d = .ok text := by
  unfold write
  split <;> simp [*]

/-- What is written for a document is read as one that mirrors it, with its sets in the order of the host. --/
theorem read_of_write [FairHost] {text : List Char} (h : write d = .ok text) (hd : IsStable d) :
    AreOrdinary text ∧ ∃ d' : Document, read ⟨text, .complete⟩ = .ok (some d'.arranged) ∧ d'.Mirrors d := by
  obtain ⟨hroom, htext⟩ := write_eq_ok_iff.mp h
  obtain ⟨hordinary, d', hparse, hmirrors⟩ := parse_of_render htext hd
  refine ⟨hordinary, d', ?_, hmirrors⟩
  rw [read_of_reads (FairHost.reads_of_writes hroom htext), hparse]
  rfl

end Markup

namespace Manifest

open Markup

/-- The bytes of ordinary characters are these characters. --/
theorem ofBytes_encode_of_areOrdinary {text : List Char} (h : AreOrdinary text) :
    Text.Source.ofBytes Charset.standard.encoding (Text.encode text) = ⟨text, .complete⟩ :=
  Text.Source.ofBytes_encode (fun x hx => (isMarkupChar_of_isOrdinary (h x hx)).1)
    fun hr => (isMarkupChar_of_isOrdinary (h _ hr)).2 rfl

/-- The content of a document that is not null is read as a document that mirrors it, with its sets in the order of the
    host. --/
theorem decode_of_encode [FairHost] {bytes : List UInt8} (h : encode d = .ok bytes) (hd : IsStable d)
    (hnull : d.isNull = false) (path : String) :
    ∃ d' : Document, decode path .standard bytes = .ok d'.arranged ∧ d'.Mirrors d := by
  unfold encode at h
  cases hw : write d with
  | error why =>
    rw [hw] at h
    cases h
  | ok text =>
    rw [hw, map_ok] at h
    cases h
    obtain ⟨hordinary, d', hread, hmirrors⟩ := read_of_write hw hd
    refine ⟨d', ?_, hmirrors⟩
    unfold decode
    simp only [ofBytes_encode_of_areOrdinary hordinary, hread, Document.isNull_arranged, hmirrors.agrees.isNull, hnull,
      Bool.false_eq_true, if_false]

/-- A document has the content of another one if it has its outline. --/
theorem encode_of_outline [FairHost] {bytes : List UInt8} {o : Outline} (h : Outline.ofDocument d = .ok o)
    (h' : Outline.ofDocument d' = .ok o) (hd : encode d' = .ok bytes) : encode d = .ok bytes := by
  have hrender : render d = render d' := by rw [render, render, h, h']
  rwa [encode, write, FairHost.writes_of_outline h h', hrender]

theorem exists_outline [Host] {bytes : List UInt8} (h : encode d = .ok bytes) : ∃ o, Outline.ofDocument d = .ok o := by
  obtain ⟨text, htext, -⟩ := map_eq_ok.mp h
  obtain ⟨o, ho, -⟩ := bind_eq_ok.mp (write_eq_ok_iff.mp htext).2
  exact ⟨o, ho⟩

/-- Documents that mirror each other have the same content. --/
theorem encode_of_mirrors [FairHost] {bytes : List UInt8} (h : d.Mirrors d') (hd : encode d' = .ok bytes) :
    encode d = .ok bytes := by
  obtain ⟨o, ho⟩ := exists_outline hd
  exact encode_of_outline (Outline.ofDocument_of_mirrors h ho) ho hd

end Manifest

end Retag

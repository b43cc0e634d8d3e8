import Retag.Proofs.Manifest.Alike
import Retag.Proofs.Manifest.Effect
import Retag.Proofs.Text.Encoding

/-! Line ends. How the lines of a manifest end does not matter: it is read as the same document, and what is written in
    its place is the same. -/

namespace Retag

namespace Text

inductive LineEnd where
  | lf
  | crlf
  | cr
  deriving DecidableEq, Repr

def LineEnd.chars : LineEnd → List Char
  | .lf => ['\n']
  | .crlf => ['\r', '\n']
  | .cr => ['\r']

/-- A text with all its lines ended in one way. --/
def LineEnd.spell (e : LineEnd) (cs : List Char) : List Char :=
  cs.flatMap fun c => if c = '\n' then e.chars else [c]

variable {cs : List Char}

@[simp] theorem LineEnd.spell_lf (cs : List Char) : LineEnd.lf.spell cs = cs := by
  have hid : (fun c => if c = '\n' then LineEnd.lf.chars else [c]) = fun c => [c] := by
    funext c
    split
    · rename_i hc
      rw [hc, LineEnd.chars]
    · rfl
  rw [LineEnd.spell, hid, List.flatMap_singleton']

theorem unifyLineEnds_return (h : cs.head? ≠ some '\n') : unifyLineEnds ('\r' :: cs) = '\n' :: unifyLineEnds cs := by
  rw [unifyLineEnds]
  rintro rest rfl
  exact absurd rfl h

/-- A text without carriage returns is read as it is, however its lines are ended. --/
theorem unifyLineEnds_spell (h : '\r' ∉ cs) (e : LineEnd) : unifyLineEnds (e.spell cs) = cs := by
  induction cs with
  | nil => rfl
  | cons c cs ih =>
    have hc : c ≠ '\r' := fun hc => h (hc ▸ List.mem_cons_self)
    have ih := ih fun hcs => h (List.mem_cons_of_mem c hcs)
    rw [LineEnd.spell, List.flatMap_cons, ← LineEnd.spell]
    split
    · rename_i hfeed
      subst hfeed
      cases e with
      | lf => exact (unifyLineEnds_cons (by decide) _).trans (congrArg _ ih)
      | crlf => exact congrArg (List.cons '\n') ih
      | cr =>
        -- The line feed behind a carriage return would belong to it; but none is left.
        have hhead : (LineEnd.cr.spell cs).head? ≠ some '\n' := by
          intro hhead
          have hmem := List.mem_of_mem_head? hhead
          obtain ⟨c, -, hc⟩ := List.mem_flatMap.mp hmem
          split at hc
          · simp [LineEnd.chars] at hc
          · rename_i hne
            exact hne (List.mem_singleton.mp hc).symm
        exact (unifyLineEnds_return hhead).trans (congrArg _ ih)
    · exact (unifyLineEnds_cons hc _).trans (congrArg _ ih)

end Text

namespace Manifest
open Files FileTree Text

variable [Host] {t : FileTree} {l : Location} {content bytes bytes' : List UInt8} {mode : Nat} {request : Request}
  {cs : List Char}

/-- Contents that are one text, with its lines ended in two ways, are decoded alike in any encoding. --/
theorem decode_line_ends (hcs : '\r' ∉ cs) {e e' : LineEnd} {charset : Charset}
    (h : Encodes charset.encoding bytes (e.spell cs)) (h' : Encodes charset.encoding bytes' (e'.spell cs))
    (path : String) : decode path charset bytes' = decode path charset bytes := by
  have hsource : Source.ofBytes charset.encoding bytes' = Source.ofBytes charset.encoding bytes := by
    rw [Source.ofBytes_of_encodes h', Source.ofBytes_of_encodes h, unifyLineEnds_spell hcs, unifyLineEnds_spell hcs]
  unfold Manifest.decode
  rw [hsource]

/-- A request that has written has put a new content in the place of the one that its path leads to. --/
theorem tree_patch_of_wrote {fault : Option Fault} (hl : t.find (.ofText request.path) = .ok l)
    (h : request.Wrote (patch fault t request).result) :
    ∃ bytes mode, (patch fault t request).tree = t.put l (.file bytes mode) := by
  obtain ⟨p, hp, hchanged, hdry⟩ := h
  have hsound := patch_eq_of_ok hp
  rw [hsound] at hp ⊢
  obtain ⟨tag, found, -, -, -, -, hsaved⟩ := patch_eq_ok hp
  obtain ⟨m, hsave⟩ := hsaved hchanged hdry
  have hends := save_ends none t (.ofText request.path) (found.tagged tag)
  rw [hsave] at hends
  generalize (patch none t request).tree = u at hends ⊢
  cases hends with
  | replaced _ temporary bytes mode n hw he hn hdir =>
    obtain rfl : m = l := (target_eq_ok hw.target).1.trans (resolve_of_find hl)
    exact ⟨bytes, mode, rfl⟩

/-- However the lines of a manifest end, it is loaded as the same document, in any encoding; its tag is the same, and a
    request ends alike, with the same error if it fails. A request that writes puts the same content in the place of the
    manifest, and any other leaves each as it is. --/
theorem line_ends_alike (hcs : '\r' ∉ cs) (hl : t.find (.ofText request.path) = .ok l)
    (hx : t.get? l = some (.file content mode)) (fault : Option Fault) (e e' : LineEnd) :
    let spelled (e : LineEnd) : FileTree := t.put l (.file (Text.encode (e.spell cs)) mode)
    let patched (e : LineEnd) : Outcome Patched := patch fault (spelled e) request
    (∀ charset bytes bytes', Encodes charset.encoding bytes (e.spell cs) →
        Encodes charset.encoding bytes' (e'.spell cs) →
        load fault (t.put l (.file bytes' mode)) (.ofText request.path) charset =
          load fault (t.put l (.file bytes mode)) (.ofText request.path) charset) ∧
      load fault (spelled e') (.ofText request.path) = load fault (spelled e) (.ofText request.path) ∧
      tagOf fault (spelled e') request.path request.selector = tagOf fault (spelled e) request.path request.selector ∧
      (patched e').result = (patched e).result ∧ (patched e').records = (patched e).records ∧
      (request.Wrote (patched e).result → ∃ bytes mode',
        (patched e).tree = t.put l (.file bytes mode') ∧ (patched e').tree = t.put l (.file bytes mode')) ∧
      (¬request.Wrote (patched e).result →
        (patched e).tree.get? l = some (.file (Text.encode (e.spell cs)) mode) ∧
        (patched e').tree.get? l = some (.file (Text.encode (e'.spell cs)) mode) ∧
        ∀ m, m ≠ l → (patched e').tree.get? m = (patched e).tree.get? m) := by
  intro spelled patched
  have hfound (bytes : List UInt8) : (t.put l (.file bytes mode)).find (.ofText request.path) = .ok l ∧
      (t.put l (.file bytes mode)).get? l = some (.file bytes mode) := find_put_of_file hl hx
  have halike (bytes bytes' : List UInt8) : (t.put l (.file bytes mode)).AlikeBut l (t.put l (.file bytes' mode)) :=
    alikeBut_put hx bytes bytes' mode
  have hloads (charset : Charset) (bytes bytes' : List UInt8) (h : Encodes charset.encoding bytes (e.spell cs))
      (h' : Encodes charset.encoding bytes' (e'.spell cs)) :
      load fault (t.put l (.file bytes' mode)) (.ofText request.path) charset =
        load fault (t.put l (.file bytes mode)) (.ofText request.path) charset :=
    load_alike (halike bytes bytes') (hfound bytes).1 (hfound bytes).2 (hfound bytes').2 (decode_line_ends hcs h h' _)
  have hload := hloads .standard _ _ (encodes_encode _) (encodes_encode _)
  have hend := patch_alike (halike _ _) (hfound _).1 hload
  refine ⟨hloads, hload, ?_, hend.result, hend.records, fun hwrote => ?_, fun hwrote => ?_⟩
  · rw [tagOf, tagOf, Manifest.find, Manifest.find, hload]
  · obtain ⟨bytes, mode', htree⟩ := tree_patch_of_wrote (hfound _).1 hwrote
    have hput : (patched e).tree = t.put l (.file bytes mode') := htree.trans (put_put t l _ _)
    exact ⟨bytes, mode', hput, (hend.written hwrote).trans hput⟩
  · obtain ⟨hrest, hown, hown'⟩ := hend.kept hwrote
    exact ⟨hown.trans (hfound _).2, hown'.trans (hfound _).2, fun m => hrest.get?_of_ne⟩

omit [Host] in
/-- A manifest with a comment and a text of several lines is patched to the same, however its lines end. --/
theorem line_ends_alike_several_lines :
    let _ : Host := .ample
    let cs := "# c\nk: |\n  x\n\n  y\nimages:\n- newTag: a\n".toList
    let t : FileTree := { nodes := [(["k.yaml"], .file (Text.encode cs) 0o644)] }
    let request : Request := { version := .str "b", path := "k.yaml" }
    let patched (e : LineEnd) := patch none (t.put ["k.yaml"] (.file (Text.encode (e.spell cs)) 0o644)) request
    '\r' ∉ cs ∧ (patch none t request).result = .ok ⟨"k.yaml", some "a", true⟩ ∧
      ∀ e, (patched e).result = (patch none t request).result ∧ (patched e).tree = (patch none t request).tree := by
  intro host cs t request patched
  have hcs : '\r' ∉ cs := by decide +kernel
  have hl : t.find (.ofText request.path) = .ok ["k.yaml"] := by decide +kernel
  have hx : t.get? ["k.yaml"] = some (.file (Text.encode cs) 0o644) := rfl
  have hresult : (patch none t request).result = .ok ⟨"k.yaml", some "a", true⟩ := by decide +kernel
  have hown : patched .lf = patch none t request := by
    simp only [patched, LineEnd.spell_lf]
    rfl
  have hwrote : request.Wrote (patched .lf).result := ⟨_, hown ▸ hresult, rfl, rfl⟩
  refine ⟨hcs, hresult, fun e => ?_⟩
  obtain ⟨-, -, -, hsame, -, hwritten, -⟩ := line_ends_alike hcs hl hx none .lf e
  obtain ⟨bytes, mode, hlf, he⟩ := hwritten hwrote
  rw [← hown]
  exact ⟨hsame, he.trans hlf.symm⟩

end Manifest
end Retag

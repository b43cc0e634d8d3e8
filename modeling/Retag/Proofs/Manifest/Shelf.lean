import Retag.Proofs.Manifest.Entry
import Retag.Proofs.Manifest.Patch

/-! Runs of requests on a shelf of manifests. Patching needs no more of files than loading and saving, so it can be
    looked at on any shelf; on one that gives back what was saved, the last request for an entry decides its tag, and
    everything else stays as it was. -/

namespace Retag.Manifest

open Files Journal

/-! ### Shelves -/

/-- What an action on a shelf leaves behind. --/
structure Left (σ α : Type) where
  result : Except Failure α
  state : σ
  records : List Record

/-- Where manifests are kept: how one is loaded, and how one is saved. --/
structure Shelf (σ : Type) where
  load : σ → Path → Except Failure Document
  save : σ → Path → Document → Left σ Unit

variable [Host]

/-- What a selector finds in a document. --/
def inspect (path : Path) (d : Document) (selector : Option String) : Except Failure Found := do
  let slot ← (locate d selector).mapError (malformedAt path)
  let tag := tagValue d slot.cell
  return ⟨d, slot.cell, tag, ← tagText? tag⟩

namespace Shelf

variable {σ : Type}

/-- Writes a tag into the entry that was found. --/
def apply (shelf : Shelf σ) (s : σ) (path : Path) (found : Found) (tag : Tag) (dryRun : Bool) : Left σ Patched :=
  let done (changed : Bool) : Patched := ⟨path.text, found.text, changed⟩
  if isText found.tag tag.text then ⟨.ok (done false), s, [currentRecord path tag]⟩
  else if dryRun then ⟨.ok (done true), s, [changeRecord "Dry run: image tag not written" path found.text tag]⟩
  else
    let saved := shelf.save s path (found.tagged tag)
    match saved.result with
    | .error e => ⟨.error e, saved.state, saved.records⟩
    | .ok () =>
      ⟨.ok (done true), saved.state, saved.records ++ [changeRecord "Image tag patched" path found.text tag]⟩

/-- Patches the tag of a manifest on a shelf. --/
def patch (shelf : Shelf σ) (s : σ) (request : Request) : Left σ Patched :=
  match Tag.ofValue request.version with
  | .error e => ⟨.error (.refused (.version e)), s, []⟩
  | .ok tag =>
    let path := Path.ofText request.path
    match shelf.load s path >>= fun d => inspect path d request.selector with
    | .error e => ⟨.error e, s, []⟩
    | .ok found => shelf.apply s path found tag request.dryRun

/-- The files of a tree as a shelf. --/
def files (fault : Option Fault) : Shelf FileTree where
  load t path := Manifest.load fault t path
  save t path d :=
    let o := saveAndRecord fault t path d
    ⟨o.result.map fun _ => (), o.tree, o.records⟩

/-- Patching a manifest in a file is patching it on the shelf of the files. --/
theorem patch_files (fault : Option Fault) (t : FileTree) (request : Request) :
    let left := (files fault).patch t request
    Manifest.patch fault t request = ⟨left.result, left.state, left.records⟩ := by
  have hfind : ∀ path, find fault t path request.selector =
      (files fault).load t path >>= fun d => inspect path d request.selector := fun _ => rfl
  simp only [Manifest.patch, patch, hfind]
  cases Tag.ofValue request.version with
  | error e => rfl
  | ok tag =>
    simp only
    cases (files fault).load t (.ofText request.path) >>= fun d => inspect (.ofText request.path) d request.selector with
    | error e => rfl
    | ok found =>
      simp only [Manifest.apply, apply, files, Outcome.andThen, Found.tagged]
      split
      · rfl
      · split
        · rfl
        · cases h : (saveAndRecord fault t (.ofText request.path)
            { found.document with cells := writeTag found.document.cells found.entry tag.text }).result <;> rfl

/-- A shelf holds a value at a path: a copy of the value is what it loads. --/
def Holds (shelf : Shelf σ) (path : Path) (s : σ) (v : Value) : Prop :=
  ∃ d, shelf.load s path = .ok d ∧ d.IsCopyOf v

/-- A shelf is faithful: in place of what it holds it takes any other value, and holds that one from then on. --/
def IsFaithful (shelf : Shelf σ) (path : Path) : Prop :=
  ∀ s v d w, shelf.Holds path s v → d.IsCopyOf w →
    (shelf.save s path d).result = .ok () ∧ shelf.Holds path (shelf.save s path d).state w

/-! ### One request -/

section

variable {shelf : Shelf σ} {path : Path} {s : σ} {v : Value} {d : Document} {r : Request} {i : Nat} {tag : Tag}
  {previous : Option Text.Wobbly}

/-- A value admits a request: the version is a tag, there is an entry for it, and the tag in there has a text. --/
structure Admits (v : Value) (r : Request) (i : Nat) (tag : Tag) (previous : Option Text.Wobbly) : Prop where
  version : Tag.ofValue r.version = .ok tag
  entry : addressed v r.selector = .ok i
  text : tagText? (tagAt v i) = .ok previous

/-- The tags that a request gives. --/
def asked (r : Request) (i : Nat) (tag : Tag) : Nat → Option String :=
  if r.dryRun then fun _ => none else only i tag.text

omit [Host] in
theorem asked_of_ne {j : Nat} (h : i ≠ j) : asked r i tag j = none := by
  rw [asked]
  split
  · rfl
  · exact if_neg (Ne.symm h)

/-- New tags in other entries make no difference to whether a request is admitted. --/
theorem admits_tagged_iff {tags : Nat → Option String} (h : tags i = none) :
    Admits (tagged tags v) r i tag previous ↔ Admits v r i tag previous := by
  constructor
  · rintro ⟨hversion, hentry, htext⟩
    rw [addressed_tagged] at hentry
    rw [tagAt_tagged hentry, h] at htext
    exact ⟨hversion, hentry, htext⟩
  · rintro ⟨hversion, hentry, htext⟩
    refine ⟨hversion, by rw [addressed_tagged, hentry], ?_⟩
    rw [tagAt_tagged hentry, h]
    exact htext

/-- What is found in a copy of a value, or that nothing is, depends on the value alone. --/
theorem inspect_of_isCopyOf (path : Path) (h : d.IsCopyOf v) (selector : Option String) :
    (∃ e, inspect path d selector = .error e ∧
        ∀ i previous, addressed v selector = .ok i → tagText? (tagAt v i) ≠ .ok previous) ∨
      ∃ slot previous, locate d selector = .ok slot ∧ addressed v selector = .ok slot.index ∧
        tagText? (tagAt v slot.index) = .ok previous ∧
        inspect path d selector = .ok ⟨d, slot.cell, tagAt v slot.index, previous⟩ := by
  obtain ⟨ks, hspans, -⟩ := id h
  rcases locate_of_spans hspans selector with ⟨why, hlocate, haddressed⟩ | ⟨slot, -, hlocate, haddressed, -, -⟩
  · refine .inl ⟨malformedAt path why, by rw [inspect, hlocate]; rfl, fun i _ hi => ?_⟩
    rw [haddressed] at hi
    cases hi
  · have htag := (tag_of_isCopyOf h hlocate).2.1
    cases htext : tagText? (tagAt v slot.index) with
    | error e =>
      refine .inl ⟨e, by simp [inspect, hlocate, htag, htext], fun i previous hi => ?_⟩
      rw [haddressed] at hi
      cases hi
      simp [htext]
    | ok previous => exact .inr ⟨slot, previous, hlocate, haddressed, htext, by simp [inspect, hlocate, htag, htext]⟩

/-- A request that is not admitted fails, and leaves everything as it is. --/
theorem patch_of_not_admits (hs : shelf.Holds path s v) (hpath : Path.ofText r.path = path)
    (h : ∀ i tag previous, ¬Admits v r i tag previous) : ∃ e, shelf.patch s r = ⟨.error e, s, []⟩ := by
  obtain ⟨d, hload, hcopy⟩ := hs
  unfold patch
  cases hversion : Tag.ofValue r.version with
  | error e => exact ⟨_, rfl⟩
  | ok tag =>
    simp only [hpath, hload, ok_bind]
    rcases inspect_of_isCopyOf path hcopy r.selector with ⟨e, hinspect, -⟩ | ⟨slot, previous, -, hentry, htext, -⟩
    · exact ⟨e, by rw [hinspect]⟩
    · exact absurd ⟨hversion, hentry, htext⟩ (h slot.index tag previous)

/-- A request that is admitted comes to its entry, in a copy of the value. --/
theorem patch_eq_apply (hs : shelf.Holds path s v) (hpath : Path.ofText r.path = path) (h : Admits v r i tag previous) :
    ∃ d slot, shelf.load s path = .ok d ∧ d.IsCopyOf v ∧ locate d r.selector = .ok slot ∧ slot.index = i ∧
      shelf.patch s r = shelf.apply s path ⟨d, slot.cell, tagAt v i, previous⟩ tag r.dryRun := by
  obtain ⟨d, hload, hcopy⟩ := hs
  rcases inspect_of_isCopyOf path hcopy r.selector with ⟨-, -, hnone⟩ | ⟨slot, text, hlocate, hentry, htext, hinspect⟩
  · exact absurd h.text (hnone i previous h.entry)
  · obtain rfl : slot.index = i := Except.ok.inj (hentry.symm.trans h.entry)
    obtain rfl : text = previous := Except.ok.inj (htext.symm.trans h.text)
    exact ⟨d, slot, hload, hcopy, hlocate, rfl, by simp only [patch, h.version, hpath, hload, ok_bind, hinspect]⟩

/-- A request that is admitted succeeds; the value gets its tag unless it was a dry run. --/
theorem patch_of_admits (hshelf : shelf.IsFaithful path) (hs : shelf.Holds path s v)
    (hpath : Path.ofText r.path = path) (h : Admits v r i tag previous) :
    (shelf.patch s r).result = .ok ⟨path.text, previous, !isText (tagAt v i) tag.text⟩ ∧
      shelf.Holds path (shelf.patch s r).state (tagged (asked r i tag) v) := by
  obtain ⟨d, slot, -, hcopy, hlocate, rfl, hpatch⟩ := patch_eq_apply hs hpath h
  have hasked : tagged (asked r slot.index tag) v = if r.dryRun then v else tagged (only slot.index tag.text) v := by
    rw [asked]
    cases r.dryRun
    · rfl
    · exact tagged_none v
  rw [hpatch, apply, hasked]
  cases hcurrent : isText (tagAt v slot.index) tag.text
  case true =>
    -- The tag is there already, so the value with it is the value as it is.
    refine ⟨rfl, ?_⟩
    rw [tagged_only_self hcurrent, ite_self]
    exact hs
  case false =>
    cases r.dryRun
    case true => exact ⟨rfl, hs⟩
    case false =>
      obtain ⟨hsaved, hholds⟩ := hshelf s v _ _ hs ((tag_of_isCopyOf hcopy hlocate).2.2 tag.text)
      simp only [Found.tagged, hsaved]
      exact ⟨rfl, hholds⟩

end

/-! ### Runs -/

/-- What a shelf has come to after a run of requests. --/
def after (shelf : Shelf σ) (s : σ) (requests : List Request) : σ :=
  requests.foldl (fun s r => (shelf.patch s r).state) s

/-- The entry that a request writes to, and the tag that it asks for, if it succeeds and is no dry run. --/
def writeOf? (shelf : Shelf σ) (s : σ) (r : Request) : Option (Nat × String) :=
  match (shelf.patch s r).result, shelf.load s (.ofText r.path), Tag.ofValue r.version with
  | .ok _, .ok d, .ok tag =>
    if r.dryRun then none else (locate d r.selector).toOption.map fun slot => (slot.index, tag.text)
  | _, _, _ => none

def writes (shelf : Shelf σ) : σ → List Request → List (Nat × String)
  | _, [] => []
  | s, r :: rest => (shelf.writeOf? s r).toList ++ shelf.writes (shelf.patch s r).state rest

/-- The tag that was written to an entry last. --/
def lastTag (writes : List (Nat × String)) (i : Nat) : Option String :=
  (writes.reverse.find? fun w => w.1 == i).map Prod.snd

omit [Host] in
theorem tagged_lastTag_nil (v : Value) : tagged (lastTag []) v = v :=
  tagged_none v

omit [Host] in
theorem lastTag_append (before after : List (Nat × String)) (i : Nat) :
    lastTag (before ++ after) i = (lastTag after i).or (lastTag before i) := by
  simp only [lastTag, List.reverse_append, List.find?_append]
  cases after.reverse.find? fun w => w.1 == i <;> rfl

omit [Host] in
theorem lastTag_singleton (i : Nat) (tag : String) : lastTag [(i, tag)] = only i tag := by
  funext j
  by_cases h : i = j
  · simp [lastTag, only, h]
  · simp [lastTag, only, h, Ne.symm h]

section

variable {shelf : Shelf σ} {path : Path} {s : σ} {v : Value} {r r' : Request}

/-- Either a value admits a request, in one way, or it does not. --/
theorem admits_or (v : Value) (r : Request) :
    (∃ i tag previous, Admits v r i tag previous) ∨ ∀ i tag previous, ¬Admits v r i tag previous := by
  by_cases h : ∃ i tag previous, Admits v r i tag previous
  · exact .inl h
  · exact .inr fun i tag previous ha => h ⟨i, tag, previous, ha⟩

/-- One request: the value gets the tag that is written, if any. --/
theorem holds_patch (hshelf : shelf.IsFaithful path) (hs : shelf.Holds path s v) (hpath : Path.ofText r.path = path) :
    shelf.Holds path (shelf.patch s r).state (tagged (lastTag (shelf.writeOf? s r).toList) v) := by
  rcases admits_or v r with ⟨i, tag, previous, h⟩ | h
  · obtain ⟨hresult, hholds⟩ := patch_of_admits hshelf hs hpath h
    obtain ⟨d, slot, hload, -, hlocate, rfl, -⟩ := patch_eq_apply hs hpath h
    rw [asked] at hholds
    simp only [writeOf?, hresult, hpath, hload, h.version, hlocate]
    cases hdry : r.dryRun
    · rw [hdry, if_neg Bool.false_ne_true, ← lastTag_singleton] at hholds
      exact hholds
    · rw [hdry] at hholds
      exact hholds
  · obtain ⟨e, hpatch⟩ := patch_of_not_admits hs hpath h
    have hwrite : shelf.writeOf? s r = none := by rw [writeOf?, hpatch]
    rw [hwrite, hpatch, Option.toList_none, tagged_lastTag_nil]
    exact hs

/-- A request that succeeds is admitted. --/
theorem admits_of_patch (hs : shelf.Holds path s v) (hpath : Path.ofText r.path = path) {p : Patched}
    (h : (shelf.patch s r).result = .ok p) : ∃ i tag previous, Admits v r i tag previous := by
  rcases admits_or v r with hadmits | hnot
  · exact hadmits
  · obtain ⟨e, hpatch⟩ := patch_of_not_admits hs hpath hnot
    rw [hpatch] at h
    cases h

/-- A request that succeeded and is made once more finds its tag there, and saves nothing, whatever saving does. --/
theorem patch_again (hshelf : shelf.IsFaithful path) (hs : shelf.Holds path s v) (hpath : Path.ofText r.path = path)
    (hdry : r.dryRun = false) {p : Patched} (h : (shelf.patch s r).result = .ok p) :
    ∃ tag, Tag.ofValue r.version = .ok tag ∧ ∀ save, patch ⟨shelf.load, save⟩ (shelf.patch s r).state r =
      ⟨.ok ⟨path.text, some tag.text, false⟩, (shelf.patch s r).state, [currentRecord path tag]⟩ := by
  obtain ⟨i, tag, previous, hadmits⟩ := admits_of_patch hs hpath h
  obtain ⟨-, hholds⟩ := patch_of_admits hshelf hs hpath hadmits
  have htag : tagAt (tagged (asked r i tag) v) i = .str tag.text := by
    rw [tagAt_tagged hadmits.entry, asked, hdry, if_neg Bool.false_ne_true, only, if_pos rfl]
    rfl
  have hagain : Admits (tagged (asked r i tag) v) r i tag (some tag.text) :=
    ⟨hadmits.version, by rw [addressed_tagged, hadmits.entry], by rw [htag]; rfl⟩
  refine ⟨tag, hadmits.version, fun save => ?_⟩
  have hsame : Holds ⟨shelf.load, save⟩ path (shelf.patch s r).state (tagged (asked r i tag) v) := hholds
  obtain ⟨d, slot, -, -, -, -, hpatch⟩ := patch_eq_apply hsame hpath hagain
  rw [hpatch, apply, htag, isText_str, beq_self_eq_true, if_pos rfl]

/-- Two requests for different entries that succeed can be made in either order, with the same results. --/
theorem patch_swap (hshelf : shelf.IsFaithful path) (hs : shelf.Holds path s v) (hpath : Path.ofText r.path = path)
    (hpath' : Path.ofText r'.path = path) (hne : addressed v r.selector ≠ addressed v r'.selector) {p p' : Patched}
    (h : (shelf.patch s r).result = .ok p) (h' : (shelf.patch (shelf.patch s r).state r').result = .ok p') :
    (shelf.patch s r').result = .ok p' ∧ (shelf.patch (shelf.patch s r').state r).result = .ok p ∧
      ∃ w, shelf.Holds path (shelf.after s [r, r']) w ∧ shelf.Holds path (shelf.after s [r', r]) w := by
  obtain ⟨i, tag, previous, hadmits⟩ := admits_of_patch hs hpath h
  obtain ⟨hresult, hholds⟩ := patch_of_admits hshelf hs hpath hadmits
  obtain ⟨j, tag', previous', hlater⟩ := admits_of_patch hholds hpath' h'
  have hij : i ≠ j := by
    rintro rfl
    exact hne (hadmits.entry.trans (addressed_tagged _ v _ ▸ hlater.entry).symm)
  have hadmits' : Admits v r' j tag' previous' := (admits_tagged_iff (asked_of_ne hij)).mp hlater
  obtain ⟨hresult', hholds'⟩ := patch_of_admits hshelf hs hpath' hadmits'
  obtain ⟨hlate, hend⟩ := patch_of_admits hshelf hholds hpath' hlater
  obtain ⟨hlate', hend'⟩ := patch_of_admits hshelf hholds' hpath
    ((admits_tagged_iff (asked_of_ne (Ne.symm hij))).mpr hadmits)
  rw [tagAt_tagged hadmits'.entry, asked_of_ne hij] at hlate
  rw [tagAt_tagged hadmits.entry, asked_of_ne (Ne.symm hij)] at hlate'
  have hcomm : tagged (asked r' j tag') (tagged (asked r i tag) v) = tagged (asked r i tag) (tagged (asked r' j tag') v) := by
    refine tagged_comm (fun k => ?_) v
    by_cases hk : i = k
    · exact .inr (asked_of_ne fun hj => hij (hk.trans hj.symm))
    · exact .inl (asked_of_ne hk)
  exact ⟨hresult'.trans (hlate.symm.trans h'), hlate'.trans (hresult.symm.trans h), _, hend, hcomm ▸ hend'⟩

/-- A run of requests: of the tags that are written to an entry, the value gets the last. --/
theorem holds_after (hshelf : shelf.IsFaithful path) : (requests : List Request) → {s : σ} → {v : Value} →
    shelf.Holds path s v → (∀ r ∈ requests, Path.ofText r.path = path) →
    shelf.Holds path (shelf.after s requests) (tagged (lastTag (shelf.writes s requests)) v)
  | [], s, v, hs, _ => by
    rw [writes, tagged_lastTag_nil]
    exact hs
  | r :: rest, s, v, hs, hpaths => by
    have hstep := holds_patch hshelf hs (hpaths r List.mem_cons_self)
    have hrest := holds_after hshelf rest hstep fun r hr => hpaths r (List.mem_cons_of_mem _ hr)
    rw [tagged_tagged] at hrest
    have htags : (fun i => (lastTag (shelf.writes (shelf.patch s r).state rest) i).or
        (lastTag (shelf.writeOf? s r).toList i)) = lastTag (shelf.writes s (r :: rest)) :=
      funext fun i => (lastTag_append _ _ i).symm
    rw [htags] at hrest
    exact hrest

/-- The last writer wins. On a faithful shelf that holds a value, after any run of requests for its path, it holds the
    value in which every entry has the tag that was written to it last, and in which all else is as it was; all the way
    every selector addresses the same entry. A request that then succeeds finds its tag there when it is made again,
    and two that succeed for different entries can be made in either order. --/
theorem last_writer_wins (hshelf : shelf.IsFaithful path) (hs : shelf.Holds path s v) (requests : List Request)
    (hpaths : ∀ r ∈ requests, Path.ofText r.path = path) :
    shelf.Holds path (shelf.after s requests) (tagged (lastTag (shelf.writes s requests)) v) ∧
      (∀ n, ∃ d, shelf.load (shelf.after s (requests.take n)) path = .ok d ∧
        ∀ selector, (locate d selector).map Slot.index = addressed v selector) ∧
      (∀ r, Path.ofText r.path = path → r.dryRun = false →
        ∀ p, (shelf.patch (shelf.after s requests) r).result = .ok p →
          ∃ tag, Tag.ofValue r.version = .ok tag ∧ ∀ save,
            patch ⟨shelf.load, save⟩ (shelf.after s (requests ++ [r])) r =
              ⟨.ok ⟨path.text, some tag.text, false⟩, shelf.after s (requests ++ [r]), [currentRecord path tag]⟩) ∧
      (∀ r r', Path.ofText r.path = path → Path.ofText r'.path = path →
        addressed v r.selector ≠ addressed v r'.selector →
        ∀ p p', (shelf.patch (shelf.after s requests) r).result = .ok p →
          (shelf.patch (shelf.after s (requests ++ [r])) r').result = .ok p' →
          (shelf.patch (shelf.after s requests) r').result = .ok p' ∧
            (shelf.patch (shelf.after s (requests ++ [r'])) r).result = .ok p ∧
            ∃ w, shelf.Holds path (shelf.after s (requests ++ [r, r'])) w ∧
              shelf.Holds path (shelf.after s (requests ++ [r', r])) w) := by
  have hafter : ∀ (requests more : List Request), shelf.after s (requests ++ more) =
      shelf.after (shelf.after s requests) more := fun requests more => List.foldl_append
  have hholds := holds_after hshelf requests hs hpaths
  refine ⟨hholds, fun n => ?_, fun r hpath hdry p h => ?_, fun r r' hpath hpath' hne p p' h h' => ?_⟩
  · obtain ⟨d, hload, hcopy⟩ := holds_after hshelf (requests.take n) hs fun r hr => hpaths r (List.mem_of_mem_take hr)
    exact ⟨d, hload, fun selector => by rw [locate_of_isCopyOf hcopy, addressed_tagged]⟩
  · rw [hafter]
    exact patch_again hshelf hholds hpath hdry h
  · simp only [hafter] at h' ⊢
    refine patch_swap hshelf hholds hpath hpath' ?_ h h'
    rw [addressed_tagged, addressed_tagged]
    exact hne

/-- A shelf that keeps one document in memory. --/
def memory : Shelf Document where
  load d _ := .ok d
  save _ _ d := ⟨.ok (), d, []⟩

omit [Host] in
theorem isFaithful_memory (path : Path) : memory.IsFaithful path :=
  fun _ _ d _ _ hcopy => ⟨rfl, d, rfl, hcopy⟩

omit [Host] in
/-- The second of two requests for one entry, one by place and one by name, decides its tag. --/
theorem last_writer_wins_by_name :
    let _ : Host := .ample
    let v : Value := .mapping [(.str "images", .list [.mapping [(.str "name", .str "a")]])]
    let d : Document := ⟨#[.scalar (.str "images"), .scalar (.str "name"), .scalar (.str "a"), .mapping [(1, 2)],
      .list [3], .mapping [(0, 4)]], 5⟩
    let requests : List Request :=
      [{ version := .str "b", path := "k.yaml" }, { version := .str "c", path := "k.yaml", selector := some "a" }]
    memory.writes d requests = [(0, "b"), (0, "c")] ∧
      memory.Holds (.ofText "k.yaml") (memory.after d requests) (tagged (lastTag (memory.writes d requests)) v) := by
  intro host v d requests
  have hcopy : d.IsCopyOf v :=
    ⟨[5, 4, 3], .mapping rfl (.cons (.scalar rfl) (.list rfl (.cons (.mapping rfl (.cons (.scalar rfl) (.scalar rfl)
      .nil)) .nil)) .nil), by decide⟩
  have hpaths : ∀ r ∈ requests, Path.ofText r.path = .ofText "k.yaml" := by
    simp [requests]
  exact ⟨by decide +kernel, (last_writer_wins (isFaithful_memory _) ⟨d, rfl, hcopy⟩ requests hpaths).1⟩

end

end Shelf

end Retag.Manifest

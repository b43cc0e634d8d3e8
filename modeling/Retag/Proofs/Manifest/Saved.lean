import Retag.Proofs.Manifest.Load

/-! Files after a save. Saving replaces the content of the file that a path leads to; the path leads to the same place
    afterwards, so the new content is what is read from it. -/

namespace Retag.Manifest
open Files

variable {t : FileTree} {path : Path} {d : Document} {l : Location} {content bytes : List UInt8} {mode mode' : Nat}

/-- A path that leads to a file leads there whatever the file holds. --/
theorem find_put_of_file (hl : t.find path = .ok l) (hx : t.get? l = some (.file content mode)) :
    (t.put l (.file bytes mode')).find path = .ok l ∧
      (t.put l (.file bytes mode')).get? l = some (.file bytes mode') :=
  ⟨FileTree.find_keeps (FileTree.keeps_put_of_file hx) FileTree.here_put hl,
    FileTree.get?_put_self (FileTree.not_isPrefixOf_here_of_get? (by simp [hx]))⟩

/-- A new content of the file that a path leads to is read through the path. --/
theorem contentOf_put (hnull : path.hasNull = false) (hl : t.find path = .ok l)
    (hx : t.get? l = some (.file content mode)) :
    contentOf none (t.put l (.file bytes mode')) path = .ok bytes := by
  obtain ⟨hfind, hget⟩ := @find_put_of_file t path l content bytes mode mode' hl hx
  have hfile : (t.put l (.file bytes mode')).isFile path = .ok true := by
    simp [FileTree.isFile, hnull, hfind, hget]
  simp only [contentOf, attempt_none, hfile, FileTree.content, hfind, ok_bind, hget, pure_eq_ok, mapError_ok]

/-- The target of a path that leads to a file is that file, unless the path of the file is too long. --/
theorem target_of_find (ht : t.HasNames) (hnull : path.hasNull = false) (hl : t.find path = .ok l)
    (hpath : pathBytes l ≤ maxPath) : target none t path = .ok l := by
  have hfollow := FileTree.follow_of_find ht hl hpath
  simp [target, FileTree.resolve_of_find hl, hnull, FileTree.isEndless, hfollow, Except.isOk, Except.toBool]

variable [Host]

/-- Without faults a document that can be written replaces the content of the file that a path leads to, if a temporary
    file can be made beside it; the file keeps its mode. --/
theorem save_of_made {made : Location × FileTree} (ht : t.HasNames) (hnull : path.hasNull = false)
    (hl : t.find path = .ok l) (hx : t.get? l = some (.file content mode)) (hmade : t.makeTemporary l = .ok made)
    (he : encode d = .ok bytes) : save none t path d = ⟨.ok l, t.put l (.file bytes mode), []⟩ := by
  have hpath := FileTree.pathBytes_le_of_makeTemporary hmade
  obtain ⟨temporary, u⟩ := made
  obtain ⟨hfree, rfl, hne⟩ := FileTree.makeTemporary_eq_ok hmade
  -- The target stands beside the temporary file as it stood before, so its mode is the one that is copied.
  have hfollow : (t.put temporary (.file bytes FileTree.temporaryMode)).follow l = .ok l := by
    have hnames : (t.put temporary (.file bytes FileTree.temporaryMode)).HasNames := by
      rw [FileTree.HasNames, FileTree.here_put]
      exact ht
    have hfind : (t.put temporary (.file bytes FileTree.temporaryMode)).find path = .ok l :=
      FileTree.find_keeps (FileTree.keeps_put_of_free hfree) FileTree.here_put hl
    exact FileTree.follow_of_find hnames hfind hpath
  have hmode : (((t.put temporary (.file bytes FileTree.temporaryMode)).follow l).toOption.bind
      (t.put temporary (.file bytes FileTree.temporaryMode)).get?).elim FileTree.temporaryMode FileTree.modeOf = mode := by
    rw [hfollow]
    change ((t.put temporary (.file bytes FileTree.temporaryMode)).get? l).elim _ _ = _
    rw [FileTree.get?_put_of_ne (Ne.symm hne), hx]
    rfl
  simp only [save, target_of_find ht hnull hl hpath, attempt_none, hmade, he, replaceBy, FileTree.write_put_of_free hfree,
    ok_bind, FileTree.copyMode_put_of_free hfree, hmode, FileTree.replace_put_of_get? hfree hne hx (by simp)]

/-- With room for a temporary file, the document replaces the content. --/
theorem save_of_find (ht : t.HasNames) (hnull : path.hasNull = false) (hl : t.find path = .ok l)
    (hx : t.get? l = some (.file content mode)) (hroom : t.HasRoom l) (he : encode d = .ok bytes) :
    ∃ mode', save none t path d = ⟨.ok l, t.put l (.file bytes mode'), []⟩ := by
  obtain ⟨made, hmade⟩ := FileTree.makeTemporary_of_hasRoom hroom
  exact ⟨mode, save_of_made ht hnull hl hx hmade he⟩

/-- What saving a document to a path that leads to a file has done, if it succeeded. --/
theorem tree_of_save (ht : t.HasNames) (hnull : path.hasNull = false) (hl : t.find path = .ok l)
    (hx : t.get? l = some (.file content mode)) {m : Location} {u : FileTree}
    (h : save none t path d = ⟨.ok m, u, []⟩) : ∃ bytes, encode d = .ok bytes ∧ u = t.put l (.file bytes mode) := by
  have hends := save_ends none t path d
  rw [h] at hends
  cases hends with
  | replaced _ temporary bytes _ _ hw he _ _ =>
    obtain rfl := (target_eq_ok hw.target).1.trans (FileTree.resolve_of_find hl)
    rw [save_of_made ht hnull hl hx hw.made he] at h
    exact ⟨bytes, he, (congrArg Outcome.tree h).symm⟩

/-- If saving succeeded, a temporary file could be made. --/
theorem made_of_save (hl : t.find path = .ok l) {m : Location} {u : FileTree}
    (h : save none t path d = ⟨.ok m, u, []⟩) : m = l ∧ ∃ made, t.makeTemporary l = .ok made := by
  have hends := save_ends none t path d
  rw [h] at hends
  cases hends with
  | replaced _ temporary bytes _ _ hw _ _ _ =>
    obtain rfl := (target_eq_ok hw.target).1.trans (FileTree.resolve_of_find hl)
    exact ⟨rfl, _, hw.made⟩

/-- Beside a file whose name is too long no temporary file can be made, so the file cannot be replaced. --/
theorem save_of_long (ht : t.HasNames) (hnull : path.hasNull = false) (hl : t.find path = .ok l)
    (hpath : pathBytes l ≤ maxPath) (hlong : maxName < (l.getLast?.getD "").utf8ByteSize + 14) :
    save none t path d = ⟨.error (refused path .nameTooLong), t, []⟩ := by
  simp only [save, target_of_find ht hnull hl hpath, attempt_none, FileTree.makeTemporary_of_long hlong]

end Retag.Manifest

import Retag.Proofs.Files.Walk

/-! Trees that are alike but for what one file holds. Walks do not see what files hold, so they lead to the same places;
    and what is put elsewhere, such as a temporary file, keeps the trees alike. -/

namespace Retag.Files
namespace FileTree

/-- Two trees differ in the content of the file at a location, and in nothing else. --/
structure AlikeBut (l : Location) (t u : FileTree) : Prop where
  rest : ∀ n, u.put l n = t.put l n
  file : ∃ content content' mode, t.get? l = some (.file content mode) ∧ u.get? l = some (.file content' mode)

variable {t u : FileTree} {l m : Location} {n n' : Node}

theorem alikeBut_put {content : List UInt8} {mode : Nat} (hx : t.get? l = some (.file content mode))
    (bytes bytes' : List UInt8) (mode' : Nat) :
    AlikeBut l (t.put l (.file bytes mode')) (t.put l (.file bytes' mode')) := by
  have hdir : t.get? l ≠ some .directory := by simp [hx]
  have hget : ∀ bytes, (t.put l (.file bytes mode')).get? l = some (.file bytes mode') :=
    fun _ => get?_put_self (not_isPrefixOf_here_of_get? hdir)
  refine ⟨fun n => ?_, bytes, bytes', mode', hget bytes, hget bytes'⟩
  rw [put_put, put_put]

/-! ### What stands in alike trees -/

theorem AlikeBut.here (h : AlikeBut l t u) : u.here = t.here := by
  simpa using congrArg FileTree.here (h.rest .directory)

theorem AlikeBut.get?_of_ne (h : AlikeBut l t u) (hm : m ≠ l) : u.get? m = t.get? m := by
  rw [← get?_put_of_ne (n := .directory) hm, h.rest, get?_put_of_ne hm]

/-- At every location stands the same, or a file of the same mode. --/
theorem AlikeBut.get?_cases (h : AlikeBut l t u) (m : Location) : u.get? m = t.get? m ∨
    ∃ content content' mode, t.get? m = some (.file content mode) ∧ u.get? m = some (.file content' mode) := by
  by_cases hm : m = l
  · exact .inr (hm ▸ h.file)
  · exact .inl (h.get?_of_ne hm)

theorem AlikeBut.isNone_get? (h : AlikeBut l t u) (m : Location) : (u.get? m).isNone = (t.get? m).isNone := by
  rcases h.get?_cases m with hm | ⟨_, _, _, ht, hu⟩
  · rw [hm]
  · rw [ht, hu]
    rfl

theorem AlikeBut.length_nodes (h : AlikeBut l t u) : u.nodes.length = t.nodes.length := by
  obtain ⟨_, _, _, ht, hu⟩ := h.file
  have hput := congrArg (fun t => (t.nodes.map Prod.fst).length) (h.rest .directory)
  rw [map_fst_nodes_put (by simp [hu]) (by simp [hu]), map_fst_nodes_put (by simp [ht]) (by simp [ht])] at hput
  simpa using hput

/-! ### Walks -/

theorem AlikeBut.walkWith (h : AlikeBut l t u) (follow : Location → List String → Except FileError Location) :
    u.walkWith follow = t.walkWith follow := by
  funext m names
  induction names generalizing m with
  | nil => rfl
  | cons name rest ih =>
    rcases h.get?_cases m with hm | ⟨_, _, _, ht, hu⟩
    · rcases h.get?_cases (m ++ [name]) with hx | ⟨_, _, _, ht, hu⟩
      · simp only [FileTree.walkWith, hm, hx, ih]
      · simp only [FileTree.walkWith, hm, ht, hu, ih]
    · simp only [FileTree.walkWith, ht, hu]

theorem AlikeBut.walk (h : AlikeBut l t u) (links : Nat) : u.walk links = t.walk links := by
  induction links with
  | zero => exact h.walkWith _
  | succ links ih => rw [FileTree.walk, FileTree.walk, ih, h.walkWith]

theorem AlikeBut.find (h : AlikeBut l t u) (p : Path) : u.find p = t.find p := by
  rw [FileTree.find, FileTree.find, h.here, h.walk]

theorem AlikeBut.follow (h : AlikeBut l t u) (m : Location) : u.follow m = t.follow m := by
  rw [FileTree.follow, FileTree.follow, h.walk]

theorem AlikeBut.isEndless (h : AlikeBut l t u) (m : Location) : u.isEndless m = t.isEndless m := by
  rw [FileTree.isEndless, FileTree.isEndless, h.follow]

/-! ### Temporary files -/

theorem put_comm_of_free (h : t.get? m = none) (hl : (t.nodes.lookup l).isSome) :
    (t.put m n).put l n' = (t.put l n').put m n := by
  have hne : m ≠ l := by
    rintro rfl
    simp [lookup_of_free h] at hl
  have hfree : (t.put l n').get? m = none := by rw [get?_put_of_ne hne, h]
  have hsome : ((t.put m n).nodes.lookup l).isSome := by rwa [lookup_put, if_neg (Ne.symm hne)]
  rw [put_of_free hfree, put, if_pos hsome, put_of_free h, put, if_pos hl]
  simp [hne]

/-- A node at a free location keeps trees alike. --/
theorem AlikeBut.put (h : AlikeBut l t u) (hm : t.get? m = none) (n : Node) : AlikeBut l (t.put m n) (u.put m n) := by
  obtain ⟨content, content', mode, ht, hu⟩ := h.file
  have hlookup : ∀ {v : FileTree} {c : List UInt8}, v.get? l = some (.file c mode) → (v.nodes.lookup l).isSome := by
    intro v c hv
    have hprefix := not_isPrefixOf_here_of_get? (t := v) (l := l) (by simp [hv])
    rw [get?, hprefix, if_neg Bool.false_ne_true] at hv
    rw [hv, Option.isSome_some]
  have hum : u.get? m = none := by
    rw [← Option.isNone_iff_eq_none, h.isNone_get?, hm]
    rfl
  have hne : l ≠ m := by
    rintro rfl
    rw [hm] at ht
    cases ht
  refine ⟨fun n' => ?_, content, content', mode, ?_, ?_⟩
  · rw [put_comm_of_free hm (hlookup ht), put_comm_of_free hum (hlookup hu), h.rest]
  · rw [get?_put_of_ne hne, ht]
  · rw [get?_put_of_ne hne, hu]

/-- Beside alike trees the same temporary file is made. --/
theorem AlikeBut.makeTemporary (h : AlikeBut l t u) (target : Location) : u.makeTemporary target =
    (t.makeTemporary target).map fun made => (made.1, u.put made.1 (.file [] temporaryMode)) := by
  simp only [FileTree.makeTemporary, h.length_nodes, freeLocation_congr h.isNone_get?]
  split
  · rfl
  · rfl

end FileTree
end Retag.Files

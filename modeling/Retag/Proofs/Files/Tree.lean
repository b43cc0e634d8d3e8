import Mathlib.Data.List.Nodup
import Mathlib.Data.List.Perm.Subperm
import Mathlib.Data.String.Basic
import Retag.Files.Call
import Retag.Proofs.Number.Digits

/-! What stands in a tree after one of its nodes was put, taken away or replaced; and temporary files: the
    location that is chosen for one is free, so taking the file away again gives the tree back. -/

namespace Retag.Files
namespace FileTree

variable {t : FileTree} {l m : Location} {n : Node}

/-! ### Nodes -/

theorem lookup_map_replace (nodes : List (Location × Node)) (l m : Location) (n : Node) :
    (nodes.map fun e => if e.1 = l then (l, n) else e).lookup m =
      if m = l then (nodes.lookup l).map fun _ => n else nodes.lookup m := by
  induction nodes with
  | nil => simp
  | cons e rest ih =>
    obtain ⟨k, v⟩ := e
    by_cases hk : k = l
    · subst hk
      by_cases hm : m = k
      · subst hm
        simp
      · simp [List.lookup_cons, beq_false_of_ne hm, ih, hm]
    · by_cases hm : m = l
      · subst hm
        have hmk : (m == k) = false := beq_false_of_ne (Ne.symm hk)
        simp [List.lookup_cons, hk, hmk, ih]
      · simp [List.lookup_cons, hk, hm, ih]

@[simp] theorem here_put : (t.put l n).here = t.here := by
  unfold put
  split <;> rfl

theorem lookup_put (m : Location) : (t.put l n).nodes.lookup m = if m = l then some n else t.nodes.lookup m := by
  unfold put
  split
  case isTrue h =>
    obtain ⟨v, hv⟩ := Option.isSome_iff_exists.mp h
    simp only [lookup_map_replace, hv, Option.map_some]
  case isFalse h =>
    rw [Option.not_isSome_iff_eq_none] at h
    rw [List.lookup_append]
    by_cases hm : m = l
    · subst hm
      simp [h]
    · have hml : (m == l) = false := beq_false_of_ne hm
      simp [hm, List.lookup_cons, hml]

/-- Putting a node changes what stands at its location and nowhere else. --/
theorem get?_put (m : Location) :
    (t.put l n).get? m = if m.isPrefixOf t.here then some .directory else if m = l then some n else t.get? m := by
  unfold get?
  rw [here_put, lookup_put]
  split <;> rfl

theorem get?_put_of_ne (h : m ≠ l) : (t.put l n).get? m = t.get? m := by
  rw [get?_put, if_neg h]
  unfold get?
  split <;> rfl

theorem get?_put_self (h : l.isPrefixOf t.here = false) : (t.put l n).get? l = some n := by
  simp [get?_put, h]

theorem not_isPrefixOf_here_of_get? (h : t.get? l ≠ some .directory) : l.isPrefixOf t.here = false := by
  cases hp : l.isPrefixOf t.here
  · rfl
  · exact absurd (by simp [get?, hp]) h

theorem not_isPrefixOf_here_of_free (h : t.get? l = none) : l.isPrefixOf t.here = false :=
  not_isPrefixOf_here_of_get? (by simp [h])

theorem lookup_of_free (h : t.get? l = none) : t.nodes.lookup l = none := by
  simpa [get?, not_isPrefixOf_here_of_free h] using h

theorem forall_ne_of_lookup_eq_none {nodes : List (Location × Node)} (h : nodes.lookup l = none) :
    ∀ e ∈ nodes, e.1 ≠ l := by
  intro e he hl
  rw [List.lookup_eq_none_iff] at h
  simpa [hl] using h e he

theorem put_of_free (h : t.get? l = none) : t.put l n = { t with nodes := t.nodes ++ [(l, n)] } := by
  simp [put, lookup_of_free h]

/-- Putting a node where one stands takes no location away and adds none. --/
theorem map_fst_nodes_put (h : (t.get? l).isSome) (hdir : t.get? l ≠ some .directory) :
    (t.put l n).nodes.map Prod.fst = t.nodes.map Prod.fst := by
  have hlookup : (t.nodes.lookup l).isSome := by
    rwa [get?, not_isPrefixOf_here_of_get? hdir, if_neg Bool.false_ne_true] at h
  rw [put, if_pos hlookup, List.map_map]
  refine List.map_congr_left fun e _ => ?_
  rw [Function.comp_apply]
  split
  · rename_i he
    exact he.symm
  · rfl

/-- Taking away what was put at a free location gives the tree back. --/
theorem erase_put_of_free (h : t.get? l = none) : (t.put l n).erase l = t := by
  rw [put_of_free h]
  have hne := forall_ne_of_lookup_eq_none (lookup_of_free h)
  have : (t.nodes ++ [(l, n)]).filter (fun e => e.1 ≠ l) = t.nodes := by
    simp only [List.filter_append, ne_eq, decide_not]
    rw [List.filter_eq_self.mpr (by simpa using hne)]
    simp
  simp only [erase, this]

theorem put_ne_self_of_free (h : t.get? l = none) : t.put l n ≠ t := by
  intro he
  have := get?_put_self (n := n) (not_isPrefixOf_here_of_free h)
  rw [he, h] at this
  cases this

/-! ### Temporary files -/

/-- The number in the name of a temporary file can be read off again. --/
theorem temporaryName_injective (name : String) : Function.Injective (temporaryName name) := by
  intro i j h
  unfold temporaryName at h
  have h' := String.ofList_injective h
  simp only [List.cons_append, List.append_assoc, List.cons.injEq, true_and, List.append_cancel_left_eq] at h'
  rw [← List.append_assoc, ← List.append_assoc, List.append_cancel_right_eq] at h'
  rw [← Number.ofDigitChars_zeros_toDigits (8 - (Nat.toDigits 10 i).length) i, h',
    Number.ofDigitChars_zeros_toDigits]

/-- A location that is taken stands in the tree or on the way to the current directory. --/
theorem mem_of_taken {folder : Location} {x : String} (h : (t.get? (folder ++ [x])).isSome) :
    folder ++ [x] ∈ t.here.take (folder.length + 1) :: t.nodes.map Prod.fst := by
  unfold get? at h
  split at h
  case isTrue hp =>
    have := List.prefix_iff_eq_take.mp (List.isPrefixOf_iff_prefix.mp hp)
    simp only [List.length_append, List.length_singleton] at this
    exact this ▸ List.mem_cons_self
  case isFalse =>
    obtain ⟨e, he, hl⟩ := List.lookup_isSome_iff.mp h
    exact List.mem_cons_of_mem _ (List.mem_map.mpr ⟨e, he, (beq_iff_eq.mp hl).symm⟩)

/-- The tries go through the numbers one by one and stop at the first free location. --/
theorem freeLocation_spec (t : FileTree) (folder : Location) (name : String) (tries number : Nat) :
    ∃ k ≤ tries, t.freeLocation folder name tries number = folder ++ [temporaryName name (number + k)] ∧
      (∀ j < k, (t.get? (folder ++ [temporaryName name (number + j)])).isSome) ∧
      (k < tries → t.get? (folder ++ [temporaryName name (number + k)]) = none) := by
  induction tries generalizing number with
  | zero => exact ⟨0, Nat.le_refl _, rfl, by simp, by simp⟩
  | succ tries ih =>
    by_cases h : (t.get? (folder ++ [temporaryName name number])).isNone
    · refine ⟨0, Nat.zero_le _, by simp [freeLocation, h], by simp, fun _ => by simpa using h⟩
    · obtain ⟨k, hk, heq, htaken, hfree⟩ := ih (number + 1)
      have shift : ∀ j, number + 1 + j = number + (j + 1) := by omega
      refine ⟨k + 1, by omega, by simp only [freeLocation, h, heq, shift]; rfl, fun j hj => ?_, fun hlt => ?_⟩
      · cases j with
        | zero => simpa [Option.isNone_iff_eq_none, Option.isSome_iff_ne_none] using h
        | succ j => simpa only [shift] using htaken j (by omega)
      · simpa only [shift] using hfree (by omega)

/-- The location that is chosen for a temporary file is free: there are more numbers to try than nodes. --/
theorem get?_freeLocation (t : FileTree) (folder : Location) (name : String) :
    t.get? (t.freeLocation folder name (t.nodes.length + 1) 0) = none := by
  obtain ⟨k, hk, heq, htaken, hfree⟩ := freeLocation_spec t folder name (t.nodes.length + 1) 0
  simp only [Nat.zero_add] at heq htaken hfree
  rw [heq]
  by_contra hsome
  have hall : ∀ j < t.nodes.length + 2, (t.get? (folder ++ [temporaryName name j])).isSome := by
    intro j hj
    have hk' : k = t.nodes.length + 1 := by
      by_contra hne
      exact hsome (hfree (by omega))
    rcases Nat.lt_or_ge j k with hlt | hge
    · exact htaken j hlt
    · rw [show j = k by omega]
      exact Option.isSome_iff_ne_none.mpr hsome
  have hinj : Function.Injective fun j => folder ++ [temporaryName name j] := fun i j h => by
    simp only [List.append_cancel_left_eq, List.cons.injEq, and_true] at h
    exact temporaryName_injective name h
  have hnodup : ((List.range (t.nodes.length + 2)).map fun j => folder ++ [temporaryName name j]).Nodup :=
    List.Nodup.map hinj List.nodup_range
  have hsub : ((List.range (t.nodes.length + 2)).map fun j => folder ++ [temporaryName name j]) ⊆
      t.here.take (folder.length + 1) :: t.nodes.map Prod.fst := fun l hl => by
    obtain ⟨j, hj, rfl⟩ := List.mem_map.mp hl
    exact mem_of_taken (hall j (List.mem_range.mp hj))
  have hle := (hnodup.subperm hsub).length_le
  simp at hle

/-- Making a temporary file adds an empty file at a free location, and nothing else. --/
theorem makeTemporary_eq_ok {target : Location} {u : FileTree} (h : t.makeTemporary target = .ok (l, u)) :
    t.get? l = none ∧ u = t.put l (.file [] temporaryMode) ∧ l ≠ target := by
  unfold makeTemporary at h
  simp only at h
  split at h
  · cases h
  · cases h
    refine ⟨get?_freeLocation .., rfl, fun heq => ?_⟩
    obtain ⟨k, -, hl, -⟩ := freeLocation_spec t target.dropLast (target.getLast?.getD "") (t.nodes.length + 1) 0
    rw [heq] at hl
    -- The name of a temporary file is longer than the name that it is made from.
    have hlast := congrArg List.getLast? hl
    rw [List.getLast?_concat] at hlast
    have hlen := congrArg (fun s => (s.getD "").toList.length) hlast
    simp only [Option.getD_some, temporaryName, String.toList_ofList, List.length_cons, List.length_append] at hlen
    omega

/-- A second node at a location takes the place of the first. --/
theorem put_put (t : FileTree) (l : Location) (n n' : Node) : (t.put l n).put l n' = t.put l n' := by
  have hsome : ((t.put l n).nodes.lookup l).isSome := by simp [lookup_put]
  by_cases h : (t.nodes.lookup l).isSome
  · have hput : ∀ n, t.put l n = { t with nodes := t.nodes.map fun e => if e.1 = l then (l, n) else e } := fun n => by
      rw [put, if_pos h]
    rw [put, if_pos hsome, hput, hput, List.map_map]
    have hmap : ∀ e ∈ t.nodes, ((fun e => if e.1 = l then (l, n') else e) ∘ fun e => if e.1 = l then (l, n) else e) e =
        if e.1 = l then (l, n') else e := fun e _ => by
      by_cases he : e.1 = l <;> simp [he]
    rw [List.map_congr_left hmap]
  · have hput : ∀ n, t.put l n = { t with nodes := t.nodes ++ [(l, n)] } := fun n => by rw [put, if_neg h]
    have hne := forall_ne_of_lookup_eq_none (Option.not_isSome_iff_eq_none.mp h)
    have hkeep : t.nodes.map (fun e => if e.1 = l then (l, n') else e) = t.nodes := by
      conv => rhs; rw [← List.map_id t.nodes]
      exact List.map_congr_left fun e he => by simp [hne e he]
    rw [put, if_pos hsome, hput, hput, List.map_append, hkeep]
    simp

/-- Writing into a temporary file fills it. --/
theorem write_put_of_free (h : t.get? l = none) (old content : List UInt8) (mode : Nat) :
    (t.put l (.file old mode)).write l content = t.put l (.file content mode) := by
  unfold write
  rw [get?_put_self (not_isPrefixOf_here_of_free h)]
  exact put_put _ _ _ _

/-- Copying a mode to a temporary file gives it the mode of the node that the source leads to, if it leads to one. --/
theorem copyMode_put_of_free (h : t.get? l = none) (source : Location) (content : List UInt8) (mode : Nat) :
    (t.put l (.file content mode)).copyMode source l = t.put l (.file content
      ((((t.put l (.file content mode)).follow source).toOption.bind (t.put l (.file content mode)).get?).elim mode
        modeOf)) := by
  unfold copyMode
  rw [get?_put_self (not_isPrefixOf_here_of_free h)]
  cases ((t.put l (.file content mode)).follow source).toOption.bind (t.put l (.file content mode)).get? with
  | none => rfl
  | some n => exact put_put _ _ _ _

/-- Moving a temporary file onto a file or a link puts it in that one's place. --/
theorem replace_put_of_get? {x : Node} (h : t.get? l = none) (hlm : l ≠ m) (hm : t.get? m = some x)
    (hdir : x ≠ .directory) : (t.put l n).replace l m = .ok (t.put m n) := by
  have hroot : m.isEmpty = false := by
    cases m with
    | nil =>
      have hroot : t.get? [] = some .directory := by simp [get?]
      rw [hroot] at hm
      exact absurd (Option.some.inj hm).symm hdir
    | cons name rest => rfl
  unfold replace
  rw [get?_put_self (not_isPrefixOf_here_of_free h), get?_put_of_ne (Ne.symm hlm), erase_put_of_free h, hm, hroot]
  cases x with
  | directory => exact absurd rfl hdir
  | file content mode => rfl
  | link target => rfl

/-- Moving a temporary file onto a target fails unless a file or a link stands there; the file is then where the
    target was. --/
theorem replace_put_of_free (h : t.get? l = none) (hlm : l ≠ m) :
    (∃ e, (t.put l n).replace l m = .error e) ∨
      ∃ x, t.get? m = some x ∧ x ≠ .directory ∧ (t.put l n).replace l m = .ok (t.put m n) := by
  by_cases hm : ∃ x, t.get? m = some x ∧ x ≠ .directory
  · obtain ⟨x, hx, hdir⟩ := hm
    exact Or.inr ⟨x, hx, hdir, replace_put_of_get? h hlm hx hdir⟩
  · refine Or.inl ?_
    unfold replace
    rw [get?_put_self (not_isPrefixOf_here_of_free h), get?_put_of_ne (Ne.symm hlm)]
    split
    · exact ⟨_, rfl⟩
    · cases hx : t.get? m with
      | none => exact ⟨_, rfl⟩
      | some x =>
        cases x with
        | directory => exact ⟨_, rfl⟩
        | _ => exact absurd ⟨_, hx, by simp⟩ hm

/-- There is room for a temporary file beside a location: with fourteen bytes more neither its name nor its path is too
    long, and not all names with eight digits are taken. --/
def HasRoom (t : FileTree) (target : Location) : Prop :=
  (target.getLast?.getD "").utf8ByteSize + 14 ≤ maxName ∧ pathBytes target + 14 ≤ maxPath ∧
    ∃ number < 10 ^ 8, t.get? (target.dropLast ++ [temporaryName (target.getLast?.getD "") number]) = none

theorem utf8Len_of_digits {ds : List Char} (h : ∀ x ∈ ds, x.isDigit = true) : String.utf8Len ds = ds.length := by
  induction ds with
  | nil => rfl
  | cons d ds ih =>
    have hd : d.utf8Size = 1 := by
      have := h d List.mem_cons_self
      simp only [Char.isDigit, Bool.and_eq_true, decide_eq_true_eq, UInt32.le_iff_toNat_le] at this
      exact Char.utf8Size_eq_one_iff.mpr (by rw [UInt32.le_iff_toNat_le]; exact Nat.le_trans this.2 (by decide))
    rw [String.utf8Len_cons, ih fun x hx => h x (List.mem_cons_of_mem _ hx), hd, List.length_cons]

/-- The name of a temporary file is the name that it is made from with six characters more, and the digits. --/
theorem utf8ByteSize_temporaryName (name : String) (number : Nat) :
    (temporaryName name number).utf8ByteSize = name.utf8ByteSize + 6 + max 8 (Nat.toDigits 10 number).length := by
  have hname : String.utf8Len name.toList = name.utf8ByteSize := by
    rw [← String.utf8ByteSize_ofList, String.ofList_toList]
  have hzeros : String.utf8Len (List.replicate (8 - (Nat.toDigits 10 number).length) '0') =
      8 - (Nat.toDigits 10 number).length := by
    rw [utf8Len_of_digits fun x hx => (List.mem_replicate.mp hx).2 ▸ rfl, List.length_replicate]
  have hdigits := utf8Len_of_digits (fun x => Number.isDigit_of_mem_toDigits (n := number) (x := x))
  have htail : String.utf8Len ".tmp".toList = 4 := by decide
  have hpoint : '.'.utf8Size = 1 := by decide
  rw [temporaryName, String.utf8ByteSize_ofList]
  simp only [List.cons_append, List.append_assoc, String.utf8Len_cons, String.utf8Len_append, hname, hzeros, hdigits,
    htail, hpoint]
  omega

theorem pathBytes_concat (folder : Location) (name : String) :
    pathBytes (folder ++ [name]) = pathBytes folder + (name.utf8ByteSize + 1) := by
  induction folder with
  | nil => simp [pathBytes]
  | cons own folder ih =>
    rw [List.cons_append, pathBytes, pathBytes, ih]
    omega

/-- Beside a location the path of another name is longer by as much as the name is. --/
theorem pathBytes_beside {target : Location} (name : String) (hne : target ≠ []) :
    pathBytes (target.dropLast ++ [name]) + (target.getLast?.getD "").utf8ByteSize =
      pathBytes target + name.utf8ByteSize := by
  obtain ⟨folder, own, rfl⟩ := (List.eq_nil_or_concat target).resolve_left hne
  simp only [List.concat_eq_append, List.dropLast_concat, List.getLast?_concat, Option.getD_some, pathBytes_concat]
  omega

/-- Where there is room, a temporary file can be made. --/
theorem makeTemporary_of_hasRoom {target : Location} (h : t.HasRoom target) :
    ∃ made, t.makeTemporary target = .ok made := by
  obtain ⟨hshort, hpath, number, hnumber, hfree⟩ := h
  obtain ⟨k, hk, heq, htaken, -⟩ := freeLocation_spec t target.dropLast (target.getLast?.getD "") (t.nodes.length + 1) 0
  simp only [Nat.zero_add] at heq htaken
  have hle : k ≤ number := by
    by_contra hlt
    have := htaken number (by omega)
    rw [hfree] at this
    cases this
  have hlen : (Nat.toDigits 10 k).length ≤ 8 :=
    (Nat.length_toDigits_le_iff (by decide) (by decide)).mpr (Nat.lt_of_le_of_lt hle hnumber)
  have hname := utf8ByteSize_temporaryName (target.getLast?.getD "") k
  have hlong : pathBytes (target.dropLast ++ [temporaryName (target.getLast?.getD "") k]) ≤ maxPath := by
    by_cases hroot : target = []
    · subst hroot
      rw [show (([] : Location).getLast?.getD "").utf8ByteSize = 0 from rfl] at hname
      simp only [List.dropLast_nil, List.nil_append, pathBytes, maxPath]
      omega
    · have := pathBytes_beside (temporaryName (target.getLast?.getD "") k) hroot
      omega
  unfold makeTemporary
  simp only [heq, List.getLast?_concat, Option.getD_some, Bool.or_eq_true, decide_eq_true_eq]
  rw [if_neg (by omega)]
  exact ⟨_, rfl⟩

/-- If a temporary file could be made, the path of its target is not too long. --/
theorem pathBytes_le_of_makeTemporary {target : Location} {made : Location × FileTree}
    (h : t.makeTemporary target = .ok made) : pathBytes target ≤ maxPath := by
  by_cases hroot : target = []
  · rw [hroot]
    exact Nat.zero_le _
  · obtain ⟨k, -, heq, -⟩ := freeLocation_spec t target.dropLast (target.getLast?.getD "") (t.nodes.length + 1) 0
    have hbeside := pathBytes_beside (temporaryName (target.getLast?.getD "") (0 + k)) hroot
    have hname := utf8ByteSize_temporaryName (target.getLast?.getD "") (0 + k)
    unfold makeTemporary at h
    simp only [heq, List.getLast?_concat, Option.getD_some, Bool.or_eq_true, decide_eq_true_eq] at h
    split at h
    · cases h
    · omega

theorem freeLocation_congr {u : FileTree} (h : ∀ m, (u.get? m).isNone = (t.get? m).isNone) (folder : Location)
    (name : String) (tries number : Nat) :
    u.freeLocation folder name tries number = t.freeLocation folder name tries number := by
  induction tries generalizing number with
  | zero => rfl
  | succ tries ih => rw [freeLocation, freeLocation, h, ih]

/-- Whether a temporary file can be made does not depend on what the target holds. --/
theorem makeTemporary_put_of_file {target : Location} {content : List UInt8} {mode : Nat}
    {made : Location × FileTree} (hx : t.get? target = some (.file content mode))
    (h : t.makeTemporary target = .ok made) (bytes : List UInt8) :
    ∃ made', (t.put target (.file bytes mode)).makeTemporary target = .ok made' := by
  have hdir : t.get? target ≠ some .directory := by simp [hx]
  have hnone : ∀ m, ((t.put target (.file bytes mode)).get? m).isNone = (t.get? m).isNone := by
    intro m
    by_cases hm : m = target
    · rw [hm, get?_put_self (not_isPrefixOf_here_of_get? hdir), hx]
      rfl
    · rw [get?_put_of_ne hm]
  have hlen : (t.put target (.file bytes mode)).nodes.length = t.nodes.length := by
    simpa using congrArg List.length (map_fst_nodes_put (n := .file bytes mode) (by simp [hx]) hdir)
  unfold makeTemporary at h ⊢
  simp only [hlen, freeLocation_congr hnone] at h ⊢
  split at h
  · cases h
  · rename_i hshort
    rw [if_neg hshort]
    exact ⟨_, rfl⟩

/-- Where a name is too long, none can be made. --/
theorem makeTemporary_of_long {target : Location} (h : maxName < (target.getLast?.getD "").utf8ByteSize + 14) :
    t.makeTemporary target = .error .nameTooLong := by
  obtain ⟨k, -, heq, -⟩ := freeLocation_spec t target.dropLast (target.getLast?.getD "") (t.nodes.length + 1) 0
  have hname := utf8ByteSize_temporaryName (target.getLast?.getD "") (0 + k)
  unfold makeTemporary
  simp only [heq, List.getLast?_concat, Option.getD_some, Bool.or_eq_true, decide_eq_true_eq]
  rw [if_pos (Or.inl (by omega))]

end FileTree
end Retag.Files

import Mathlib.Data.List.Induction
import Retag.Files.Walk
import Retag.Proofs.Files.Tree

/-! Walks and what they find. A walk that succeeds passes directories and links only; the links on it cost less and
    less the deeper they are nested, so none leads back into itself, and resolving the path finds the same place. -/

namespace Retag.Files
namespace FileTree

/-! ### Walks -/

/-- A name that names something, and is not too long. --/
structure IsName (name : String) : Prop where
  notEmpty : name ≠ ""
  notPoint : name ≠ "."
  notPoints : name ≠ ".."
  short : name.utf8ByteSize ≤ maxName

/-- Something stands at a location, and no file. --/
def IsPassable (t : FileTree) (l : Location) : Prop :=
  ∃ n, t.get? l = some n ∧ ∀ content mode, n ≠ .file content mode

/-- A walk along names from one location to another that follows a number of links. --/
inductive Leads (t : FileTree) : Location → List String → Location → Nat → Prop where
  | stop (l : Location) : Leads t l [] l 0
  | stay {l m : Location} {name : String} {rest : List String} {k : Nat} (hl : t.IsPassable l)
      (hn : name = "" ∨ name = ".") (h : Leads t l rest m k) : Leads t l (name :: rest) m k
  | up {l m : Location} {rest : List String} {k : Nat} (hl : t.IsPassable l) (h : Leads t l.dropLast rest m k) :
      Leads t l (".." :: rest) m k
  | down {l m : Location} {name : String} {rest : List String} {k : Nat} {x : Node} (hl : t.IsPassable l)
      (hn : IsName name) (hx : t.get? (l ++ [name]) = some x) (hlink : ∀ target, x ≠ .link target)
      (h : Leads t (l ++ [name]) rest m k) : Leads t l (name :: rest) m k
  | link {l m : Location} {name : String} {rest : List String} {k : Nat} {target : String} (hl : t.IsPassable l)
      (hn : IsName name) (hx : t.get? (l ++ [name]) = some (.link target))
      (h : Leads t (startOf l (targetNames target).1) ((targetNames target).2 ++ rest) m k) :
      Leads t l (name :: rest) m (k + 1)

variable {t u : FileTree} {l m : Location} {names rest : List String} {name : String} {k : Nat}

theorem IsName.ne_blank (h : IsName name) : ¬(name = "" ∨ name = ".") :=
  fun h' => h'.elim h.notEmpty h.notPoint

theorem Leads.append {as bs : List String} {n : Location} {j : Nat} (h : Leads t l as m k) (h' : Leads t m bs n j) :
    Leads t l (as ++ bs) n (k + j) := by
  induction h with
  | stop l => simpa using h'
  | stay hl hn _ ih => exact .stay hl hn (ih h')
  | up hl _ ih => exact .up hl (ih h')
  | down hl hn hx hlink _ ih => exact .down hl hn hx hlink (ih h')
  | link hl hn hx _ ih =>
    rw [Nat.succ_add]
    exact .link hl hn hx (by simpa using ih h')

/-- A walk along two rows of names has an end of the first row. --/
theorem Leads.split {as bs : List String} (h : Leads t l (as ++ bs) m k) :
    ∃ n i j, Leads t l as n i ∧ Leads t n bs m j ∧ k = i + j := by
  generalize hcs : as ++ bs = cs at h
  induction h generalizing as with
  | stop l =>
    obtain ⟨rfl, rfl⟩ := List.append_eq_nil_iff.mp hcs
    exact ⟨l, 0, 0, .stop l, .stop l, rfl⟩
  | @stay l m name rest k hl hn h ih =>
    cases as with
    | nil =>
      rw [List.nil_append] at hcs
      exact ⟨l, 0, _, .stop l, hcs ▸ .stay hl hn h, (Nat.zero_add _).symm⟩
    | cons a as =>
      obtain ⟨rfl, hrest⟩ := List.cons_eq_cons.mp hcs
      obtain ⟨n, i, j, hi, hj, hk⟩ := ih hrest
      exact ⟨n, i, j, .stay hl hn hi, hj, hk⟩
  | @up l m rest k hl h ih =>
    cases as with
    | nil =>
      rw [List.nil_append] at hcs
      exact ⟨l, 0, _, .stop l, hcs ▸ .up hl h, (Nat.zero_add _).symm⟩
    | cons a as =>
      obtain ⟨rfl, hrest⟩ := List.cons_eq_cons.mp hcs
      obtain ⟨n, i, j, hi, hj, hk⟩ := ih hrest
      exact ⟨n, i, j, .up hl hi, hj, hk⟩
  | @down l m name rest k x hl hn hx hlink h ih =>
    cases as with
    | nil =>
      rw [List.nil_append] at hcs
      exact ⟨l, 0, _, .stop l, hcs ▸ .down hl hn hx hlink h, (Nat.zero_add _).symm⟩
    | cons a as =>
      obtain ⟨rfl, hrest⟩ := List.cons_eq_cons.mp hcs
      obtain ⟨n, i, j, hi, hj, hk⟩ := ih hrest
      exact ⟨n, i, j, .down hl hn hx hlink hi, hj, hk⟩
  | @link l m name rest k target hl hn hx h ih =>
    cases as with
    | nil =>
      rw [List.nil_append] at hcs
      exact ⟨l, 0, _, .stop l, hcs ▸ .link hl hn hx h, (Nat.zero_add _).symm⟩
    | cons a as =>
      obtain ⟨rfl, rfl⟩ := List.cons_eq_cons.mp hcs
      -- Behind a link the names of its target come first; the cut stays behind what is left of `as`.
      obtain ⟨n, i, j, hi, hj, hk⟩ := ih (List.append_assoc ..)
      exact ⟨n, i + 1, j, .link hl hn hx hi, hj, by omega⟩

/-- A walk has one end, and follows one number of links. --/
theorem Leads.unique {m' : Location} {k' : Nat} (h : Leads t l names m k) (h' : Leads t l names m' k') :
    m = m' ∧ k = k' := by
  induction h generalizing m' k' with
  | stop l =>
    cases h'
    exact ⟨rfl, rfl⟩
  | stay hl hn h ih =>
    cases h' with
    | stay _ _ h' => exact ih h'
    | up _ _ => simp at hn
    | down _ hn' _ _ _ => exact absurd hn hn'.ne_blank
    | link _ hn' _ _ => exact absurd hn hn'.ne_blank
  | up hl h ih =>
    cases h' with
    | stay _ hn' _ => simp at hn'
    | up _ h' => exact ih h'
    | down _ hn' _ _ _ => exact absurd rfl hn'.notPoints
    | link _ hn' _ _ => exact absurd rfl hn'.notPoints
  | down hl hn hx hlink h ih =>
    cases h' with
    | stay _ hn' _ => exact absurd hn' hn.ne_blank
    | up _ _ => exact absurd rfl hn.notPoints
    | down _ _ _ _ h' => exact ih h'
    | link _ _ hx' _ =>
      rw [hx] at hx'
      exact absurd (Option.some.inj hx') (hlink _)
  | link hl hn hx h ih =>
    cases h' with
    | stay _ hn' _ => exact absurd hn' hn.ne_blank
    | up _ _ => exact absurd rfl hn.notPoints
    | down _ _ hx' hlink' _ =>
      rw [hx] at hx'
      exact absurd (Option.some.inj hx').symm (hlink' _)
    | link _ _ hx' h' =>
      rw [hx] at hx'
      cases hx'
      obtain ⟨hm, hk⟩ := ih h'
      exact ⟨hm, by rw [hk]⟩

/-! ### Finding -/

theorem leads_of_walkWith {links : Nat} {follow : Location → List String → Except FileError Location}
    (hf : ∀ l names, follow l names = .ok m → ∃ k, k + 1 ≤ links ∧ Leads t l names m k)
    (h : t.walkWith follow l names = .ok m) : ∃ k ≤ links, Leads t l names m k := by
  induction names generalizing l with
  | nil =>
    cases h
    exact ⟨0, Nat.zero_le _, .stop _⟩
  | cons name rest ih =>
    simp only [walkWith] at h
    split at h
    · cases h
    · cases h
    · rename_i hfile hnone
      have hl : t.IsPassable l := by
        obtain ⟨x, hx⟩ := Option.ne_none_iff_exists'.mp hnone
        exact ⟨x, hx, fun content mode hc => hfile content mode (hc ▸ hx)⟩
      split at h
      · rename_i hn
        obtain ⟨k, hk, hlead⟩ := ih h
        exact ⟨k, hk, .stay hl (by simpa using hn) hlead⟩
      · rename_i hn
        simp only [Bool.or_eq_true, decide_eq_true_eq, not_or] at hn
        split at h
        · rename_i hup
          subst hup
          obtain ⟨k, hk, hlead⟩ := ih h
          exact ⟨k, hk, .up hl hlead⟩
        · rename_i hup
          split at h
          · cases h
          · rename_i hlong
            have hname : IsName name := ⟨hn.1, hn.2, hup, by omega⟩
            split at h
            · cases h
            · rename_i target hx
              -- Only here is `follow` used, and this is where a link is counted.
              obtain ⟨k, hk, hlead⟩ := hf _ _ h
              exact ⟨k + 1, hk, .link hl hname hx hlead⟩
            · rename_i x hlink hx
              obtain ⟨k, hk, hlead⟩ := ih h
              exact ⟨k, hk, .down hl hname hx (fun target hc => hlink target hc) hlead⟩

/-- A walk that succeeds leads to its result, over no more links than it may follow. --/
theorem leads_of_walk {links : Nat} (h : t.walk links l names = .ok m) : ∃ k ≤ links, Leads t l names m k := by
  induction links generalizing l names with
  | zero => exact leads_of_walkWith (fun _ _ h => by cases h) h
  | succ links ih =>
    refine leads_of_walkWith (fun _ _ h => ?_) h
    obtain ⟨k, hk, hlead⟩ := ih h
    exact ⟨k, Nat.succ_le_succ hk, hlead⟩

/-- A walk that leads somewhere succeeds if it may follow enough links. --/
theorem walk_of_leads {links : Nat} (h : Leads t l names m k) (hk : k ≤ links) : t.walk links l names = .ok m := by
  -- Only at a link does it matter how many links may be followed.
  have walk_eq : ∀ links, ∃ follow, t.walk links = t.walkWith follow ∧
      ∀ n, links = n + 1 → follow = t.walk n := fun links => by
    cases links with
    | zero => exact ⟨_, rfl, fun n hn => by cases hn⟩
    | succ n => exact ⟨_, rfl, fun n' hn => by cases hn; rfl⟩
  induction h generalizing links with
  | stop l =>
    obtain ⟨follow, hw, -⟩ := walk_eq links
    rw [hw, walkWith]
  | @stay l m name rest k hl hn _ ih =>
    obtain ⟨follow, hw, -⟩ := walk_eq links
    obtain ⟨x, hx, hfile⟩ := hl
    have hn' : (name = "" || name = ".") = true := by simpa using hn
    rw [← ih hk, hw]
    cases x with
    | file content mode => exact absurd rfl (hfile content mode)
    | _ => simp only [walkWith, hx, hn', if_true]
  | @up l m rest k hl _ ih =>
    obtain ⟨follow, hw, -⟩ := walk_eq links
    obtain ⟨x, hx, hfile⟩ := hl
    rw [← ih hk, hw]
    cases x with
    | file content mode => exact absurd rfl (hfile content mode)
    | _ => simp [walkWith, hx]
  | @down l m name rest k y hl hn hy hlink _ ih =>
    obtain ⟨follow, hw, -⟩ := walk_eq links
    obtain ⟨x, hx, hfile⟩ := hl
    have hshort : ¬maxName < name.utf8ByteSize := Nat.not_lt.mpr hn.short
    rw [← ih hk, hw]
    cases x with
    | file content mode => exact absurd rfl (hfile content mode)
    | _ =>
      cases y with
      | link target => exact absurd rfl (hlink target)
      | _ => simp [walkWith, hx, hn.notEmpty, hn.notPoint, hn.notPoints, hshort, hy]
  | @link l m name rest k target hl hn hy _ ih =>
    obtain ⟨n, rfl⟩ : ∃ n, links = n + 1 := ⟨links - 1, by omega⟩
    obtain ⟨x, hx, hfile⟩ := hl
    have hshort : ¬maxName < name.utf8ByteSize := Nat.not_lt.mpr hn.short
    rw [← ih (Nat.le_of_succ_le_succ hk)]
    cases x with
    | file content mode => exact absurd rfl (hfile content mode)
    | _ => simp [walk, walkWith, hx, hn.notEmpty, hn.notPoint, hn.notPoints, hshort, hy]

/-! ### Resolving -/

/-- Resolving a link costs a number of links, itself included. --/
def Costs (t : FileTree) (e : Location) (cost : Nat) : Prop :=
  ∃ l name target m k, e = l ++ [name] ∧ t.get? e = some (.link target) ∧
    Leads t (startOf l (targetNames target).1) (targetNames target).2 m k ∧ cost = k + 1

theorem Costs.unique {e : Location} {c c' : Nat} (h : Costs t e c) (h' : Costs t e c') : c = c' := by
  obtain ⟨l, name, target, m, k, rfl, hx, hk, rfl⟩ := h
  obtain ⟨l', name', target', m', k', he, hx', hk', rfl⟩ := h'
  obtain ⟨rfl, -⟩ := List.append_singleton_inj.mp he
  rw [hx] at hx'
  cases hx'
  rw [(hk.unique hk').2]

/-- There are no more links than the tree counts. --/
theorem length_le_linkCount {entered : List Location} (hn : entered.Nodup)
    (h : ∀ e ∈ entered, ∃ target, t.get? e = some (.link target)) : entered.length ≤ t.linkCount := by
  unfold linkCount
  rw [List.countP_eq_length_filter, ← List.length_map (f := Prod.fst)]
  refine (hn.subperm fun e he => ?_).length_le
  obtain ⟨target, hx⟩ := h e he
  unfold get? at hx
  split at hx
  · cases hx
  · obtain ⟨a, b, hab, -⟩ := List.lookup_eq_some_iff.mp hx
    rw [hab]
    exact List.mem_map.mpr ⟨(e, .link target), by simp, rfl⟩

/-- Where a walk leads somewhere, resolving leads to the same place: every link that is entered costs more than what
    is still to be walked within it, so none is entered twice. --/
theorem resolveFrom_of_leads {links : Nat} {entered : List Location} (h : Leads t l names m k)
    (hc : ∀ e ∈ entered, ∃ c, Costs t e c ∧ k < c) (hn : entered.Nodup)
    (hlinks : t.linkCount < links + entered.length) : t.resolveFrom links entered l names = (m, true) := by
  induction k using Nat.strongRecOn generalizing l names m links entered with
  | ind k ih =>
  induction names generalizing l with
  | nil =>
    cases h
    cases links <;> rfl
  | cons name rest ihn =>
    cases h with
    | stay _ hn' h =>
      rw [← ihn h]
      cases links <;> simp [resolveFrom, resolveWith, hn']
    | up _ h =>
      rw [← ihn h]
      cases links <;> simp [resolveFrom, resolveWith]
    | @down _ _ _ _ _ x _ hname hx hlink h =>
      rw [← ihn h]
      cases x with
      | link target => exact absurd rfl (hlink target)
      | _ => cases links <;> simp [resolveFrom, resolveWith, hname.notEmpty, hname.notPoint, hname.notPoints, hx]
    | @link _ _ _ _ k target _ hname hx h =>
      -- The walk splits into the one within the link's target and the one behind it.
      obtain ⟨n, i, j, hi, hj, rfl⟩ := h.split
      have hcost : Costs t (l ++ [name]) (i + 1) := ⟨l, name, target, n, i, rfl, hx, hi, rfl⟩
      have hnot : l ++ [name] ∉ entered := fun hmem => by
        obtain ⟨c, hcc, hlt⟩ := hc _ hmem
        have := hcost.unique hcc
        omega
      have hn' : ((l ++ [name]) :: entered).Nodup := List.nodup_cons.mpr ⟨hnot, hn⟩
      have hcount := length_le_linkCount hn' fun e he => by
        rcases List.mem_cons.mp he with rfl | he
        · exact ⟨target, hx⟩
        · obtain ⟨c, ⟨_, _, target', _, _, -, hx', -⟩, -⟩ := hc e he
          exact ⟨target', hx'⟩
      rw [List.length_cons] at hcount
      obtain ⟨links, rfl⟩ : ∃ n, links = n + 1 := ⟨links - 1, by omega⟩
      have inner : t.resolveFrom links ((l ++ [name]) :: entered) (startOf l (targetNames target).1)
          (targetNames target).2 = (n, true) := by
        refine ih i (by omega) hi (fun e he => ?_) hn' (by rw [List.length_cons]; omega)
        rcases List.mem_cons.mp he with rfl | he
        · exact ⟨i + 1, hcost, Nat.lt_succ_self i⟩
        · obtain ⟨c, hcc, hlt⟩ := hc e he
          exact ⟨c, hcc, by omega⟩
      have outer : t.resolveFrom (links + 1) entered n rest = (m, true) := by
        refine ih j (by omega) hj (fun e he => ?_) hn hlinks
        obtain ⟨c, hcc, hlt⟩ := hc e he
        exact ⟨c, hcc, by omega⟩
      rw [← outer]
      simp [resolveFrom, resolveWith, hname.notEmpty, hname.notPoint, hname.notPoints, hx, hnot, inner]

/-- A path that is found is resolved to where it was found. --/
theorem resolve_of_find {p : Path} (h : t.find p = .ok l) : t.resolve p = l := by
  unfold find at h
  split at h
  · cases h
  · obtain ⟨k, -, hlead⟩ := leads_of_walk h
    unfold resolve
    rw [resolveFrom_of_leads hlead (by simp) List.nodup_nil (by simp)]

/-! ### Straight ways -/

/-- A location whose names lead to it without links, points and double points. --/
inductive IsStraight (t : FileTree) : Location → Prop where
  | root : IsStraight t []
  | down {l : Location} {name : String} {x : Node} (hs : IsStraight t l) (hl : t.IsPassable l) (hn : IsName name)
      (hx : t.get? (l ++ [name]) = some x) (hlink : ∀ target, x ≠ .link target) : IsStraight t (l ++ [name])

theorem IsStraight.leads (h : IsStraight t l) : Leads t [] l l 0 := by
  induction h with
  | root => exact .stop []
  | down _ hl hn hx hlink ih => exact ih.append (.down hl hn hx hlink (.stop _))

theorem IsStraight.walk (h : IsStraight t l) (links : Nat) : t.walk links [] l = .ok l :=
  walk_of_leads h.leads (Nat.zero_le _)

theorem IsStraight.dropLast (h : IsStraight t l) : IsStraight t l.dropLast := by
  cases h with
  | root => exact .root
  | down hs _ _ _ _ => simpa using hs

/-- The names of the current directory are names. --/
def HasNames (t : FileTree) : Prop :=
  ∀ name ∈ t.here, IsName name

theorem isStraight_of_prefix (ht : t.HasNames) (h : l <+: t.here) : IsStraight t l := by
  induction l using List.reverseRecOn with
  | nil => exact .root
  | append_singleton l name ih =>
    have hl : l <+: t.here := (List.prefix_append l [name]).trans h
    have hdir : ∀ q : Location, q <+: t.here → t.get? q = some .directory := fun q hq => by
      simp [get?, List.isPrefixOf_iff_prefix.mpr hq]
    exact .down (ih hl) ⟨_, hdir l hl, by simp⟩ (ht name (h.subset (by simp))) (hdir _ h) (by simp)

theorem isStraight_startOf (ht : t.HasNames) (s : Start) : IsStraight t (startOf t.here s) := by
  cases s with
  | here => exact isStraight_of_prefix ht (List.prefix_refl _)
  | _ => exact .root

/-- From a straight way a walk leads to a straight way. --/
theorem Leads.isStraight (h : Leads t l names m k) (hl : IsStraight t l) : IsStraight t m := by
  induction h with
  | stop _ => exact hl
  | stay _ _ _ ih => exact ih hl
  | up _ _ ih => exact ih hl.dropLast
  | down hp hn hx hlink _ ih => exact ih (.down hl hp hn hx hlink)
  | @link l _ _ _ _ target _ _ _ _ ih =>
    refine ih ?_
    unfold startOf
    split
    · exact hl
    all_goals exact .root

theorem isStraight_of_find {p : Path} (ht : t.HasNames) (h : t.find p = .ok l) : IsStraight t l := by
  unfold find at h
  split at h
  · cases h
  · obtain ⟨k, -, hlead⟩ := leads_of_walk h
    exact hlead.isStraight (isStraight_startOf ht _)

/-- What was found is found again by its own names, unless they are too long a path. --/
theorem follow_of_find {p : Path} (ht : t.HasNames) (h : t.find p = .ok l) (hpath : pathBytes l ≤ maxPath) :
    t.follow l = .ok l := by
  rw [follow, if_neg (Nat.not_lt.mpr hpath), (isStraight_of_find ht h).walk]

/-- By its own names it does not lead into endless links. --/
theorem isEndless_of_find {p : Path} (ht : t.HasNames) (h : t.find p = .ok l) : t.isEndless l = false := by
  unfold isEndless follow
  by_cases hpath : maxPath < pathBytes l
  · rw [if_pos hpath]
    decide
  · rw [if_neg hpath, (isStraight_of_find ht h).walk]

/-! ### Changed trees -/

/-- What stands in one tree stands in another, but files may have another content and mode. --/
def Keeps (t u : FileTree) : Prop :=
  ∀ l x, t.get? l = some x → u.get? l = some x ∨
    ∃ content mode content' mode', x = .file content mode ∧ u.get? l = some (.file content' mode')

theorem IsPassable.keeps (h : t.IsPassable l) (hu : t.Keeps u) : u.IsPassable l := by
  obtain ⟨x, hx, hfile⟩ := h
  rcases hu l x hx with hy | ⟨content, mode, _, _, rfl, -⟩
  · exact ⟨x, hy, hfile⟩
  · exact absurd rfl (hfile content mode)

/-- Walks lead to the same place where only files are different or new. --/
theorem Leads.keeps (h : Leads t l names m k) (hu : t.Keeps u) : Leads u l names m k := by
  induction h with
  | stop l => exact .stop l
  | stay hl hn _ ih => exact .stay (hl.keeps hu) hn ih
  | up hl _ ih => exact .up (hl.keeps hu) ih
  | down hl hn hx hlink _ ih =>
    rcases hu _ _ hx with hy | ⟨_, _, _, _, -, hy⟩
    · exact .down (hl.keeps hu) hn hy hlink ih
    · exact .down (hl.keeps hu) hn hy (by simp) ih
  | link hl hn hx _ ih =>
    rcases hu _ _ hx with hy | ⟨_, _, _, _, hfile, -⟩
    · exact .link (hl.keeps hu) hn hy ih
    · cases hfile

theorem find_keeps {p : Path} (hu : t.Keeps u) (hhere : u.here = t.here) (h : t.find p = .ok l) :
    u.find p = .ok l := by
  unfold find at h ⊢
  split at h
  · cases h
  · rename_i hlong
    obtain ⟨k, hk, hlead⟩ := leads_of_walk h
    rw [if_neg hlong, hhere]
    exact walk_of_leads (hlead.keeps hu) hk

theorem keeps_put_of_free {n : Node} (h : t.get? l = none) : t.Keeps (t.put l n) := by
  intro m x hx
  have hm : m ≠ l := by
    rintro rfl
    rw [h] at hx
    cases hx
  exact Or.inl (by rw [get?_put_of_ne hm, hx])

theorem keeps_put_of_file {content content' : List UInt8} {mode mode' : Nat}
    (h : t.get? l = some (.file content mode)) : t.Keeps (t.put l (.file content' mode')) := by
  intro m x hx
  by_cases hm : m = l
  · subst hm
    rw [h] at hx
    cases hx
    exact Or.inr ⟨_, _, _, _, rfl, get?_put_self (not_isPrefixOf_here_of_get? (by simp [h]))⟩
  · exact Or.inl (by rw [get?_put_of_ne hm, hx])

end FileTree
end Retag.Files

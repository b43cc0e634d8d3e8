import Retag.Host
import Retag.Proofs.Markup.Built

/-! Documents with their sets in the order of the host. Their cells are as they may be if they were so before. Where no set
    has more than one member there is nothing to arrange, and the document mirrors what it mirrored before. -/

namespace Retag

open Markup

/-! ### Keys that are equal -/

theorem Scalar.same_comm (v w : Scalar) : v.same w = w.same v := by
  cases v with
  | float x =>
    cases w with
    | float y => cases x <;> cases y <;> simp [same, Number.Binary64.sameValue, Bool.beq_comm, Bool.and_comm]
    | _ => rfl
  | moment m =>
    cases w with
    | moment n =>
      simp only [same, Calendar.Moment.same]
      cases m.offset <;> cases n.offset <;> simp only [Bool.beq_comm]
    | _ => rfl
  | _ => cases w <;> simp only [same, Bool.beq_comm]

variable {cells : Cells} {d d' : Document} {ks : List Ref}

namespace Cells

theorem sameKey_comm (r s : Ref) : cells.sameKey r s = cells.sameKey s r := by
  unfold sameKey
  rw [Bool.beq_comm (a := r)]
  cases cells.scalar? r <;> cases cells.scalar? s <;> simp only [Scalar.same_comm]

/-- Keys may come in any order. --/
theorem AreKeys.perm {ls : List Ref} (h : AreKeys cells ks) (hperm : ls.Perm ks) : AreKeys cells ls where
  lt := fun k hk => h.lt k (hperm.mem_iff.mp hk)
  scalar := fun k hk => h.scalar k (hperm.mem_iff.mp hk)
  apart := (hperm.pairwise_iff fun {k l} hkl => by rwa [sameKey_comm]).mpr h.apart

end Cells

/-! ### Cells of the arranged document -/

variable [Host]

namespace Document

theorem size_arranged (d : Document) : d.arranged.cells.size = d.cells.size := Array.size_map

theorem get_arranged (d : Document) (r : Ref) : d.arranged.cells.get r = (d.cells.get r).arranged d.cells := by
  rw [Cells.get, Cells.get, arranged, Array.getElem?_map]
  cases d.cells[r]? <;> rfl

theorem keeps_arranged (d : Document) : d.cells.Keeps d.arranged.cells where
  size := Nat.le_of_eq (size_arranged d).symm
  scalar? := fun r _ => by
    rw [Cells.scalar?, Cells.scalar?, get_arranged]
    cases d.cells.get r <;> rfl

/-- The cells are as they may be in any order of the members of sets. --/
theorem areBuilt_arranged (h : d.cells.AreBuilt) : d.arranged.cells.AreBuilt := by
  intro r hr
  rw [size_arranged] at hr
  have hbuilt := (h r hr).mono (keeps_arranged d)
  rw [get_arranged]
  cases hc : d.cells.get r with
  | set members =>
    rw [hc] at hbuilt
    exact Cells.AreKeys.perm hbuilt (Host.arrange_perm d.cells members)
  | _ =>
    rw [hc] at hbuilt
    exact hbuilt

theorem isNull_arranged (d : Document) : d.arranged.isNull = d.isNull := by
  unfold isNull
  rw [show d.arranged.root = d.root from rfl, get_arranged]
  cases d.cells.get d.root <;> rfl

end Document

/-! ### Sets with at most one member -/

/-- A cell is no set of several members, which the host goes through in an order of its own. --/
def Cells.IsOrdered (cells : Cells) (r : Ref) : Prop :=
  ∀ members, cells.get r = .set members → members.length ≤ 1

theorem Host.arrange_of_length_le {members : List Ref} (h : members.length ≤ 1) :
    Host.arrange cells members = members := by
  have hperm := Host.arrange_perm cells members
  match members with
  | [] => exact List.perm_nil.mp hperm
  | [m] => exact List.perm_singleton.mp hperm
  | _ :: _ :: _ => simp at h

/-- A cell that agrees with one that is no set of several members is not rearranged. --/
theorem Cell.Agrees.arranged {R : Ref → Ref → Prop} {c c' : Cell} (h : Agrees R c c')
    (hc : ∀ members, c' = .set members → members.length ≤ 1) : c.arranged cells = c := by
  cases h with
  | set h => rw [Cell.arranged, Host.arrange_of_length_le (h.length_eq ▸ hc _ rfl)]
  | _ => rfl

/-- An arranged document mirrors what the document mirrors, if there is no order to choose. --/
theorem Document.Mirrors.arranged (h : d.Mirrors d') (hd : d'.cells.All d'.cells.IsOrdered d'.root) :
    d.arranged.Mirrors d' := by
  obtain ⟨R, hroot, hR⟩ := h
  have hcell : ∀ r s, R r s ∧ d'.cells.All d'.cells.IsOrdered s → d.arranged.cells.get r = d.cells.get r := by
    rintro r s ⟨hr, hs⟩
    rw [get_arranged, (hR.agrees r s hr).arranged hs.self]
  refine ⟨fun r s => R r s ∧ d'.cells.All d'.cells.IsOrdered s, ⟨hroot, hd⟩, fun r s hrs => ?_,
    fun r s r' s' hrs hrs' hk => ?_⟩
  · rw [hcell r s hrs]
    have hagrees := (hR.agrees r s hrs.1).flip.and_of_parts (P := fun s => d'.cells.All d'.cells.IsOrdered s) fun q hq =>
      hrs.2.part hq
    exact hagrees.flip.mono fun _ _ h => ⟨h.2, h.1⟩
  · rw [hcell r s hrs] at hk
    exact hR.once r s r' s' hrs.1 hrs'.1 hk

end Retag

import Retag.Proofs.Document.Cells
import Retag.Proofs.Manifest.Effect

/-! The entry that a selector addresses, and why it addresses none. A selector addresses the first item of the list of
    entries, or the item at the least index whose name is the given text; it is refused for the first thing that is not
    in order, from the whole document down to the items. Both hold of every document, whatever it shares. -/

namespace Retag

namespace Cells

def IsMapping (cells : Cells) (r : Ref) : Prop :=
  ∃ entries, cells.get r = .mapping entries

/-- A cell is a mapping in which a text stands for a value; of several keys that are this text the first counts. --/
def Maps (cells : Cells) (r : Ref) (key : String) (v : Ref) : Prop :=
  ∃ before k after, cells.get r = .mapping (before ++ (k, v) :: after) ∧ cells.get k = .scalar (.str key) ∧
    ∀ e ∈ before, cells.get e.1 ≠ .scalar (.str key)

theorem lookup?_eq_some_iff {cells : Cells} {entries : List (Ref × Ref)} {key : String} {v : Ref} :
    cells.lookup? entries key = some v ↔
      ∃ before k after, entries = before ++ (k, v) :: after ∧ cells.get k = .scalar (.str key) ∧
        ∀ e ∈ before, cells.get e.1 ≠ .scalar (.str key) := by
  rw [lookup?, Option.map_eq_some_iff]
  constructor
  · rintro ⟨⟨k, w⟩, hfind, rfl⟩
    obtain ⟨hk, before, after, rfl, hbefore⟩ := List.find?_eq_some_iff_append.mp hfind
    refine ⟨before, k, after, rfl, isText_iff_get.mp hk, fun e he hkey => ?_⟩
    have hno := hbefore e he
    rw [isText_iff_get.mpr hkey] at hno
    cases hno
  · rintro ⟨before, k, after, rfl, hk, hbefore⟩
    refine ⟨(k, v), List.find?_eq_some_iff_append.mpr ⟨isText_iff_get.mpr hk, before, after, rfl, ?_⟩, rfl⟩
    intro e he
    rw [Bool.not_eq_true', ← Bool.not_eq_true, isText_iff_get]
    exact hbefore e he

end Cells

namespace Manifest
open Cells Files

/-- A cell is a mapping whose name is a given text. A value of another kind is not this text, whatever it looks like. --/
def HasName (cells : Cells) (name : String) (r : Ref) : Prop :=
  ∃ v, cells.Maps r nameKey v ∧ cells.get v = .scalar (.str name)

/-- A selector addresses an item of the list of entries. --/
inductive Addresses (d : Document) : Option String → Slot → Prop
  | first {l first : Ref} {rest : List Ref} (h : d.cells.Maps d.root imagesKey l)
      (hl : d.cells.get l = .list (first :: rest)) (hfirst : d.cells.IsMapping first) : Addresses d none ⟨0, first⟩
  | named {l entry : Ref} {items : List Ref} {name : String} {i : Nat} (h : d.cells.Maps d.root imagesKey l)
      (hl : d.cells.get l = .list items) (hi : items[i]? = some entry) (hname : HasName d.cells name entry)
      (hleast : ∀ j < i, ∀ r, items[j]? = some r → ¬HasName d.cells name r) : Addresses d (some name) ⟨i, entry⟩

/-- A selector is refused, for the first reason that there is. --/
inductive Refuses (d : Document) : Option String → Malformation → Prop
  | notMapping {selector : Option String} (h : ¬d.cells.IsMapping d.root) : Refuses d selector .notMapping
  | missing {selector : Option String} (h : d.cells.IsMapping d.root)
      (hl : ∀ l, d.cells.Maps d.root imagesKey l → d.cells.get l = .scalar .null) : Refuses d selector .imagesMissing
  | notList {selector : Option String} {l : Ref} (h : d.cells.Maps d.root imagesKey l)
      (hnull : d.cells.get l ≠ .scalar .null) (hl : ∀ items, d.cells.get l ≠ .list items) :
      Refuses d selector .imagesNotList
  | empty {selector : Option String} {l : Ref} (h : d.cells.Maps d.root imagesKey l) (hl : d.cells.get l = .list []) :
      Refuses d selector .imagesEmpty
  | firstNotMapping {l first : Ref} {rest : List Ref} (h : d.cells.Maps d.root imagesKey l)
      (hl : d.cells.get l = .list (first :: rest)) (hfirst : ¬d.cells.IsMapping first) :
      Refuses d none .firstNotMapping
  | noImage {l : Ref} {items : List Ref} {name : String} (h : d.cells.Maps d.root imagesKey l)
      (hl : d.cells.get l = .list items) (hne : items ≠ []) (hnone : ∀ r ∈ items, ¬HasName d.cells name r) :
      Refuses d (some name) (.noImage name)

/-! ### What is looked up -/

section

variable {cells : Cells} {r : Ref} {es : List (Ref × Ref)} {items : List Ref} {name : String} {i : Nat}

theorem entriesOf?_eq_some_iff : entriesOf? cells r = some es ↔ cells.get r = .mapping es := by
  unfold entriesOf?
  split <;> simp_all

theorem isMapping_iff : cells.IsMapping r ↔ (entriesOf? cells r).isSome := by
  simp only [IsMapping, Option.isSome_iff_exists, entriesOf?_eq_some_iff]

theorem maps_iff {key : String} {v : Ref} (h : entriesOf? cells r = some es) :
    cells.Maps r key v ↔ cells.lookup? es key = some v := by
  simp only [Maps, entriesOf?_eq_some_iff.mp h, Cell.mapping.injEq, lookup?_eq_some_iff]

theorem isNamed_iff : isNamed cells name r = true ↔ HasName cells name r := by
  unfold isNamed HasName
  cases hes : entriesOf? cells r with
  | none =>
    simp only [Bool.false_eq_true, false_iff]
    rintro ⟨v, ⟨before, k, after, hr, -⟩, -⟩
    rw [entriesOf?_eq_some_iff.mpr hr] at hes
    cases hes
  | some es =>
    simp only [maps_iff hes]
    cases cells.lookup? es nameKey with
    | none => simp
    | some v => simp [isText_iff_get]

theorem findIdx?_isNamed_eq_some (h : items.findIdx? (isNamed cells name) = some i) :
    ∃ r, items[i]? = some r ∧ HasName cells name r ∧ ∀ j < i, ∀ s, items[j]? = some s → ¬HasName cells name s := by
  obtain ⟨hlt, hname, hleast⟩ := List.findIdx?_eq_some_iff_getElem.mp h
  refine ⟨_, List.getElem?_eq_getElem hlt, isNamed_iff.mp hname, fun j hj s hs hs' => hleast j hj ?_⟩
  obtain ⟨_, rfl⟩ := List.getElem?_eq_some_iff.mp hs
  exact isNamed_iff.mpr hs'

theorem findIdx?_isNamed_eq_none (h : items.findIdx? (isNamed cells name) = none) :
    ∀ r ∈ items, ¬HasName cells name r := by
  intro r hr hname
  have hno := List.findIdx?_eq_none_iff.mp h r hr
  rw [isNamed_iff.mpr hname] at hno
  cases hno

end

/-! ### How the search ends -/

variable {d : Document} {selector : Option String} {slot : Slot} {why : Malformation} {l : Ref} {items : List Ref}

theorem images_of_maps (h : d.cells.Maps d.root imagesKey l) : images d = match d.cells.get l with
    | .scalar .null => .error .imagesMissing
    | .list [] => .error .imagesEmpty
    | .list items => .ok items
    | _ => .error .imagesNotList := by
  obtain ⟨before, k, after, hroot, -⟩ := id h
  have hes := entriesOf?_eq_some_iff.mpr hroot
  rw [maps_iff hes] at h
  split
  all_goals simp only [images, *]

theorem images_of_items (h : d.cells.Maps d.root imagesKey l) (hl : d.cells.get l = .list items) (hne : items ≠ []) :
    images d = .ok items := by
  obtain ⟨first, rest, rfl⟩ := List.exists_cons_of_ne_nil hne
  rw [images_of_maps h, hl]

theorem images_of_missing (h : d.cells.IsMapping d.root)
    (hl : ∀ l, d.cells.Maps d.root imagesKey l → d.cells.get l = .scalar .null) : images d = .error .imagesMissing := by
  obtain ⟨entries, hroot⟩ := h
  have hes := entriesOf?_eq_some_iff.mpr hroot
  cases himages : d.cells.lookup? entries imagesKey with
  | none => simp only [images, hes, himages]
  | some l =>
    have hmaps := (maps_iff hes).mpr himages
    rw [images_of_maps hmaps, hl l hmaps]

theorem Refuses.locate_eq (h : Refuses d selector why) : locate d selector = .error why := by
  cases h with
  | notMapping h =>
    rw [isMapping_iff, Option.not_isSome_iff_eq_none] at h
    simp only [locate, images, h, error_bind]
  | missing h hl => rw [locate, images_of_missing h hl, error_bind]
  | notList h hnull hl =>
    have himages : images d = .error .imagesNotList := by
      rw [images_of_maps h]
      split <;> simp_all
    rw [locate, himages, error_bind]
  | empty h hl => rw [locate, images_of_maps h, hl, error_bind]
  | firstNotMapping h hl hfirst =>
    rw [isMapping_iff] at hfirst
    simp only [locate, images_of_items h hl (List.cons_ne_nil _ _), ok_bind, select, if_neg hfirst]
  | noImage h hl hne hnone =>
    rename_i items name
    have hnot : items.findIdx? (isNamed d.cells name) = none := by
      rw [List.findIdx?_eq_none_iff]
      intro r hr
      rw [← Bool.not_eq_true, isNamed_iff]
      exact hnone r hr
    simp only [locate, images_of_items h hl hne, ok_bind, select, hnot]

theorem Addresses.locate_eq (h : Addresses d selector slot) : locate d selector = .ok slot := by
  cases h with
  | first h hl hfirst =>
    rw [isMapping_iff] at hfirst
    simp only [locate, images_of_items h hl (List.cons_ne_nil _ _), ok_bind, select, if_pos hfirst]
  | named h hl hi hname hleast =>
    rename_i l entry items name i
    have hne : items ≠ [] := by
      rintro rfl
      cases hi
    obtain ⟨hlt, hentry⟩ := List.getElem?_eq_some_iff.mp hi
    have hfind : items.findIdx? (isNamed d.cells name) = some i :=
      List.findIdx?_eq_some_iff_getElem.mpr ⟨hlt, hentry ▸ isNamed_iff.mpr hname, fun j hj hj' =>
        hleast j hj _ (List.getElem?_eq_getElem (Nat.lt_trans hj hlt)) (isNamed_iff.mp hj')⟩
    simp only [locate, images_of_items h hl hne, ok_bind, select, hfind, hi, Option.getD_some]

/-- A list of entries that there is has items, or there is a reason to refuse every selector. --/
theorem images_cases (d : Document) :
    (∃ l items, d.cells.Maps d.root imagesKey l ∧ d.cells.get l = .list items ∧ items ≠ []) ∨
      ∃ why, ∀ selector, Refuses d selector why := by
  by_cases hroot : d.cells.IsMapping d.root
  · by_cases hnull : ∀ l, d.cells.Maps d.root imagesKey l → d.cells.get l = .scalar .null
    · exact .inr ⟨_, fun _ => .missing hroot hnull⟩
    · push Not at hnull
      obtain ⟨l, hl, hnull⟩ := hnull
      by_cases hitems : ∃ items, d.cells.get l = .list items
      · obtain ⟨items, hitems⟩ := hitems
        by_cases hempty : items = []
        · exact .inr ⟨_, fun _ => .empty hl (hempty ▸ hitems)⟩
        · exact .inl ⟨l, items, hl, hitems, hempty⟩
      · exact .inr ⟨_, fun _ => .notList hl hnull fun items h => hitems ⟨items, h⟩⟩
  · exact .inr ⟨_, fun _ => .notMapping hroot⟩

/-- A selector addresses an entry, or there is a reason to refuse it. --/
theorem addresses_or_refuses (d : Document) (selector : Option String) :
    (∃ slot, Addresses d selector slot) ∨ ∃ why, Refuses d selector why := by
  rcases images_cases d with ⟨l, items, hl, hitems, hne⟩ | ⟨why, hrefuses⟩
  · cases selector with
    | none =>
      obtain ⟨first, rest, rfl⟩ := List.exists_cons_of_ne_nil hne
      by_cases hfirst : d.cells.IsMapping first
      · exact .inl ⟨_, .first hl hitems hfirst⟩
      · exact .inr ⟨_, .firstNotMapping hl hitems hfirst⟩
    | some name =>
      cases hi : items.findIdx? (isNamed d.cells name) with
      | none => exact .inr ⟨_, .noImage hl hitems hne (findIdx?_isNamed_eq_none hi)⟩
      | some i =>
        obtain ⟨r, hr, hname, hleast⟩ := findIdx?_isNamed_eq_some hi
        exact .inl ⟨_, .named hl hitems hr hname hleast⟩
  · exact .inr ⟨why, hrefuses selector⟩

theorem locate_eq_ok_iff : locate d selector = .ok slot ↔ Addresses d selector slot := by
  refine ⟨fun h => ?_, Addresses.locate_eq⟩
  rcases addresses_or_refuses d selector with ⟨slot', haddresses⟩ | ⟨why, hrefuses⟩
  · cases h.symm.trans haddresses.locate_eq
    exact haddresses
  · cases h.symm.trans hrefuses.locate_eq

theorem locate_eq_error_iff : locate d selector = .error why ↔ Refuses d selector why := by
  refine ⟨fun h => ?_, Refuses.locate_eq⟩
  rcases addresses_or_refuses d selector with ⟨slot, haddresses⟩ | ⟨why', hrefuses⟩
  · cases h.symm.trans haddresses.locate_eq
  · cases h.symm.trans hrefuses.locate_eq
    exact hrefuses

/-- A search ends at an entry exactly if the selector addresses it: the first item, or the one at the least index that
    has the name. It is refused in the wording for the path exactly if there is a reason, the first one from the whole
    document down to the items. So a manifest that is loaded is searched as it is, and goes on as it is with the
    entry. --/
theorem locate_iff [Host] (d : Document) (path : String) (selector : Option String) :
    let found := (locate d selector).mapError fun why => Failure.refused (.malformed path why)
    (∀ slot, found = .ok slot ↔ Addresses d selector slot) ∧
      (∀ e, found = .error e ↔ ∃ why, e = .refused (.malformed path why) ∧ Refuses d selector why) ∧
      ∀ fault t p, load fault t p = .ok d →
        (∀ f, find fault t p selector = .ok f →
          f.document = d ∧ ∃ slot, Addresses d selector slot ∧ f.entry = slot.cell) ∧
        ∀ why, Refuses d selector why → find fault t p selector = .error (.refused (.malformed p.text why)) := by
  intro found
  refine ⟨fun slot => ?_, fun e => ?_, fun fault t p hload => ⟨fun f hf => ?_, fun why hwhy => ?_⟩⟩
  · rw [← locate_eq_ok_iff]
    simp only [found]
    cases locate d selector <;> simp
  · simp only [← locate_eq_error_iff, found]
    cases locate d selector with
    | error why => simp [eq_comm]
    | ok slot => simp
  · obtain ⟨hload', slot, hslot, hentry, -⟩ := find_eq_ok hf
    obtain rfl := Except.ok.inj (hload.symm.trans hload')
    exact ⟨rfl, slot, locate_eq_ok_iff.mp hslot, hentry⟩
  · simp only [find, hload, ok_bind, hwhy.locate_eq, mapError_error, error_bind, malformedAt]

/-- Neither a number nor an item that is no mapping is taken for the name that is asked for. --/
theorem locate_iff_second_of_name :
    let _ : Host := .ample
    let items : List Value := [.str "7", .mapping [(.str "name", .scalar (.int 7))],
      .mapping [(.str "name", .str "7")], .mapping [(.str "name", .str "7")]]
    let d := Document.ofValue (.mapping [(.str "images", .list items)])
    ∃ slot, Addresses d (some "7") slot ∧ slot.index = 2 := by
  intro host items d
  have hslot : locate d (some "7") = .ok ⟨2, 7⟩ := by decide +kernel
  refine ⟨⟨2, 7⟩, ((locate_iff d "k.yaml" (some "7")).1 _).mp ?_, rfl⟩
  rw [hslot, mapError_ok]

end Manifest
end Retag

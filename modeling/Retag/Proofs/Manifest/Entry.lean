import Retag.Manifest.Patch
import Retag.Proofs.Document.Spans
import Retag.Proofs.Results

/-! The addressed entry of a value. Which entry a selector addresses is decided by the value alone, and neither it nor
    any other entry changes when tags are written; writing a tag into a copy of a value gives a copy of the value with
    that tag. -/

namespace Retag.Manifest

/-! ### Entries of values -/

/-- The value of a text among entries. --/
def valueOf? (entries : List (Value × Value)) (key : String) : Option Value :=
  (entries.find? fun e => isText e.1 key).map Prod.snd

/-- Whether a value is a mapping. --/
def isMapping : Value → Bool
  | .mapping _ => true
  | _ => false

/-- Whether a value is a mapping with a given text as its name. --/
def bearsName (name : String) : Value → Bool
  | .mapping entries => ((valueOf? entries nameKey).map fun v => isText v name).getD false
  | _ => false

/-- The items of the list of entries of a value. --/
def itemsOf : Value → Except Malformation (List Value)
  | .mapping entries => match valueOf? entries imagesKey with
    | none | some (.scalar .null) => .error .imagesMissing
    | some (.list []) => .error .imagesEmpty
    | some (.list items) => .ok items
    | some _ => .error .imagesNotList
  | _ => .error .notMapping

/-- The index of the item that a selector addresses. --/
def indexIn (items : List Value) : Option String → Except Malformation Nat
  | none => match items with
    | [] => .error .imagesEmpty
    | v :: _ => if isMapping v then .ok 0 else .error .firstNotMapping
  | some name => match items.findIdx? (bearsName name) with
    | some i => .ok i
    | none => .error (.noImage name)

/-- The index of the entry that a selector addresses in a value. --/
def addressed (v : Value) (selector : Option String) : Except Malformation Nat := do
  indexIn (← itemsOf v) selector

/-- The tag of an item, null if there is none. --/
def itemTag : Value → Value
  | .mapping entries => (valueOf? entries tagKey).getD .null
  | _ => .null

/-- The tag of the entry of an index. --/
def tagAt (v : Value) (i : Nat) : Value :=
  match itemsOf v with
  | .ok items => (items[i]?.map itemTag).getD .null
  | .error _ => .null

/-! ### Tags in values -/

/-- Entries with a text as their tag, in the old place or else last. --/
def tagEntries (entries : List (Value × Value)) (tag : String) : List (Value × Value) :=
  match entries with
  | [] => [(.str tagKey, .str tag)]
  | (k, v) :: rest => if isText k tagKey then (k, .str tag) :: rest else (k, v) :: tagEntries rest tag

/-- An item with a new tag, if there is one for it. --/
def tagItem (tag : Option String) : Value → Value
  | .mapping entries => match tag with
    | some s => .mapping (tagEntries entries s)
    | none => .mapping entries
  | v => v

/-- A list with new tags for its items, by index. --/
def tagItems (tags : Nat → Option String) : Value → Value
  | .list items => .list (items.mapIdx fun i v => tagItem (tags i) v)
  | v => v

/-- Entries with another value for a text that is among them. --/
def alter (entries : List (Value × Value)) (key : String) (f : Value → Value) : List (Value × Value) :=
  match entries with
  | [] => []
  | (k, v) :: rest => if isText k key then (k, f v) :: rest else (k, v) :: alter rest key f

/-- A value with new tags for its entries, by index. --/
def tagged (tags : Nat → Option String) : Value → Value
  | .mapping entries => .mapping (alter entries imagesKey (tagItems tags))
  | v => v

/-- One new tag. --/
def only (i : Nat) (tag : String) : Nat → Option String :=
  fun j => if j = i then some tag else none

variable {v w : Value} {entries : List (Value × Value)} {key : String} {items : List Value} {tags tags' : Nat → Option String}
  {i : Nat} {s : String} {selector : Option String}

theorem isText_iff : isText v s = true ↔ v = .str s := by
  unfold isText Value.str
  split
  · simp
  · rename_i h
    simp only [Bool.false_eq_true, false_iff]
    exact h s

theorem isText_str (s t : String) : isText (.str s) t = (s == t) := rfl

theorem valueOf?_cons (k v : Value) (entries : List (Value × Value)) (key : String) :
    valueOf? ((k, v) :: entries) key = if isText k key then some v else valueOf? entries key := by
  unfold valueOf?
  rw [List.find?_cons]
  cases isText k key <;> rfl

theorem valueOf?_alter (f : Value → Value) : (entries : List (Value × Value)) →
    valueOf? (alter entries key f) key = (valueOf? entries key).map f
  | [] => rfl
  | (k, v) :: rest => by
    rw [alter, valueOf?_cons]
    cases hk : isText k key <;> simp [valueOf?_cons, hk, valueOf?_alter f rest]

theorem valueOf?_tagEntries_self : (entries : List (Value × Value)) → valueOf? (tagEntries entries s) tagKey = some (.str s)
  | [] => rfl
  | (k, v) :: rest => by
    rw [tagEntries]
    cases hk : isText k tagKey <;> simp [valueOf?_cons, hk, valueOf?_tagEntries_self rest]

theorem valueOf?_tagEntries_of_ne (h : key ≠ tagKey) : (entries : List (Value × Value)) →
    valueOf? (tagEntries entries s) key = valueOf? entries key
  | [] => by
    have : isText (.str tagKey) key = false := by simpa [isText_str] using Ne.symm h
    rw [tagEntries, valueOf?_cons, this]
    rfl
  | (k, v) :: rest => by
    rw [tagEntries, valueOf?_cons]
    cases hk : isText k tagKey
    · simp [valueOf?_cons, valueOf?_tagEntries_of_ne h rest]
    · have : isText k key = false := by
        rw [isText_iff.mp hk]
        simpa [isText_str] using Ne.symm h
      simp [valueOf?_cons, this]

theorem tagEntries_tagEntries (s t : String) : (entries : List (Value × Value)) →
    tagEntries (tagEntries entries s) t = tagEntries entries t
  | [] => by simp [tagEntries, isText_str]
  | (k, v) :: rest => by
    cases hk : isText k tagKey <;> simp [tagEntries, hk, tagEntries_tagEntries s t rest]

/-- A tag that is there already changes nothing. --/
theorem tagEntries_self : (entries : List (Value × Value)) → valueOf? entries tagKey = some (.str s) →
    tagEntries entries s = entries
  | [], h => by cases h
  | (k, v) :: rest, h => by
    rw [valueOf?_cons] at h
    cases hk : isText k tagKey
    · rw [hk, if_neg Bool.false_ne_true] at h
      rw [tagEntries, hk, if_neg Bool.false_ne_true, tagEntries_self rest h]
    · rw [hk, if_pos rfl] at h
      cases h
      rw [tagEntries, hk, if_pos rfl]

@[simp] theorem tagItem_none (v : Value) : tagItem none v = v := by
  cases v <;> rfl

theorem tagItem_tagItem (a b : Option String) (v : Value) : tagItem b (tagItem a v) = tagItem (b.or a) v := by
  cases v <;> cases a <;> cases b <;> simp [tagItem, tagEntries_tagEntries]

@[simp] theorem isMapping_tagItem (a : Option String) (v : Value) : isMapping (tagItem a v) = isMapping v := by
  cases v <;> cases a <;> rfl

@[simp] theorem bearsName_tagItem (a : Option String) (name : String) (v : Value) :
    bearsName name (tagItem a v) = bearsName name v := by
  cases v <;> cases a <;> simp [tagItem, bearsName, valueOf?_tagEntries_of_ne (show nameKey ≠ tagKey by decide)]

theorem itemTag_tagItem (hv : isMapping v = true) (a : Option String) :
    itemTag (tagItem a v) = (a.map Value.str).getD (itemTag v) := by
  cases v with
  | mapping entries => cases a <;> simp [tagItem, itemTag, valueOf?_tagEntries_self]
  | _ => cases hv

theorem tagItem_self (h : isText (itemTag v) s = true) : tagItem (some s) v = v := by
  cases v with
  | mapping entries =>
    rw [isText_iff, itemTag] at h
    cases hv : valueOf? entries tagKey with
    | none =>
      rw [hv] at h
      cases h
    | some w =>
      rw [hv, Option.getD_some] at h
      rw [tagItem, tagEntries_self entries (h ▸ hv)]
  | _ => rfl

/-! ### Values with new tags -/

theorem itemsOf_tagged (tags : Nat → Option String) (v : Value) :
    itemsOf (tagged tags v) = (itemsOf v).map fun items => items.mapIdx fun i v => tagItem (tags i) v := by
  cases v with
  | mapping entries =>
    rw [tagged, itemsOf, itemsOf, valueOf?_alter]
    cases h : valueOf? entries imagesKey with
    | none => rfl
    | some w =>
      cases w with
      | scalar x => cases x <;> rfl
      | list items => cases items <;> simp [tagItems]
      | _ => rfl
  | _ => rfl

theorem indexIn_mapIdx (tags : Nat → Option String) (items : List Value) (selector : Option String) :
    indexIn (items.mapIdx fun i v => tagItem (tags i) v) selector = indexIn items selector := by
  have hfind : ∀ (p : Value → Bool) (items : List Value) (tags : Nat → Option String),
      (∀ a v, p (tagItem a v) = p v) → (items.mapIdx fun i v => tagItem (tags i) v).findIdx? p = items.findIdx? p := by
    intro p items tags hp
    induction items generalizing tags with
    | nil => rfl
    | cons v rest ih => simp only [List.mapIdx_cons, List.findIdx?_cons, hp, ih fun i => tags (i + 1)]
  cases selector with
  | none => cases items <;> simp [indexIn]
  | some name => simp only [indexIn, hfind _ _ _ fun a v => bearsName_tagItem a name v]

/-- New tags do not change what a selector addresses. --/
theorem addressed_tagged (tags : Nat → Option String) (v : Value) (selector : Option String) :
    addressed (tagged tags v) selector = addressed v selector := by
  unfold addressed
  rw [itemsOf_tagged]
  cases itemsOf v with
  | error e => rfl
  | ok items => exact indexIn_mapIdx tags items selector

/-- An addressed item is a mapping. --/
theorem isMapping_of_indexIn (h : indexIn items selector = .ok i) : ∃ v, items[i]? = some v ∧ isMapping v = true := by
  cases selector with
  | none =>
    cases items with
    | nil => cases h
    | cons v rest =>
      simp only [indexIn] at h
      split at h
      · cases h
        exact ⟨v, rfl, ‹_›⟩
      · cases h
  | some name =>
    simp only [indexIn] at h
    split at h
    · rename_i j hj
      cases h
      obtain ⟨hlt, hname, -⟩ := List.findIdx?_eq_some_iff_getElem.mp hj
      refine ⟨_, List.getElem?_eq_getElem hlt, ?_⟩
      cases hv : items[i] with
      | mapping entries => rfl
      | _ =>
        rw [hv] at hname
        cases hname
    · cases h

/-- The tag of an addressed entry is the new one, if there is one. --/
theorem tagAt_tagged (h : addressed v selector = .ok i) (tags : Nat → Option String) :
    tagAt (tagged tags v) i = ((tags i).map Value.str).getD (tagAt v i) := by
  obtain ⟨items, hitems, hi⟩ := bind_eq_ok.mp h
  obtain ⟨w, hw, hmapping⟩ := isMapping_of_indexIn hi
  simp [tagAt, itemsOf_tagged, hitems, hw, itemTag_tagItem hmapping]

theorem alter_alter (f g : Value → Value) : (entries : List (Value × Value)) →
    alter (alter entries key f) key g = alter entries key (g ∘ f)
  | [] => rfl
  | (k, v) :: rest => by
    cases hk : isText k key <;> simp [alter, hk, alter_alter f g rest]

theorem alter_eq_self {f : Value → Value} : (entries : List (Value × Value)) →
    (∀ v, valueOf? entries key = some v → f v = v) → alter entries key f = entries
  | [], _ => rfl
  | (k, v) :: rest, h => by
    cases hk : isText k key
    · rw [alter, hk, if_neg Bool.false_ne_true, alter_eq_self rest fun w hw => h w (by simpa [valueOf?_cons, hk] using hw)]
    · rw [alter, hk, if_pos rfl, h v (by simp [valueOf?_cons, hk])]

/-- Of the tags that are given one after the other, the last one stays. --/
theorem tagged_tagged (tags tags' : Nat → Option String) (v : Value) :
    tagged tags' (tagged tags v) = tagged (fun i => (tags' i).or (tags i)) v := by
  cases v with
  | mapping entries =>
    have : tagItems tags' ∘ tagItems tags = tagItems fun i => (tags' i).or (tags i) := by
      funext w
      cases w with
      | list items => simp [tagItems, Function.comp_def, tagItem_tagItem]
      | _ => rfl
    simp only [tagged, alter_alter, this]
  | _ => rfl

/-- Tags for different entries may be given in either order. --/
theorem tagged_comm (h : ∀ i, tags i = none ∨ tags' i = none) (v : Value) :
    tagged tags' (tagged tags v) = tagged tags (tagged tags' v) := by
  have hor : (fun i => (tags' i).or (tags i)) = fun i => (tags i).or (tags' i) := by
    funext i
    rcases h i with hi | hi <;> simp [hi]
  rw [tagged_tagged, tagged_tagged, hor]

@[simp] theorem tagged_none (v : Value) : tagged (fun _ => none) v = v := by
  cases v with
  | mapping entries =>
    have : ∀ w, tagItems (fun _ => none) w = w := by
      intro w
      cases w with
      | list items =>
        rw [tagItems]
        congr 1
        exact List.ext_getElem? fun j => by simp
      | _ => rfl
    simp only [tagged, alter_eq_self entries fun w _ => this w]
  | _ => rfl

/-- A tag that is there already changes nothing. --/
theorem tagged_only_self (h : isText (tagAt v i) s = true) : tagged (only i s) v = v := by
  cases v with
  | mapping entries =>
    rw [tagged, alter_eq_self entries fun w hw => ?_]
    cases w with
    | list items =>
      cases items with
      | nil => rfl
      | cons x rest =>
        rw [tagItems]
        congr 1
        refine List.ext_getElem? fun j => ?_
        rw [List.getElem?_mapIdx]
        by_cases hj : j = i
        · subst hj
          have hitems : itemsOf (.mapping entries) = .ok (x :: rest) := by simp only [itemsOf, hw]
          cases hx : (x :: rest)[j]? with
          | none => rfl
          | some y =>
            rw [tagAt, hitems] at h
            simp only [hx, Option.map_some, Option.getD_some] at h
            simp [only, tagItem_self h]
        · simp [only, hj]
    | _ => rfl
  | _ => rfl

theorem mapIdx_only (items : List Value) (i : Nat) (s : String) :
    (items.mapIdx fun j v => tagItem (only i s j) v) = items.modify i (tagItem (some s)) := by
  refine List.ext_getElem? fun j => ?_
  rw [List.getElem?_mapIdx, List.getElem?_modify]
  by_cases hj : i = j
  · simp [only, hj]
  · simp [only, hj, Ne.symm hj]

/-! ### Entries of copies -/

section

open Cells

variable {cells cells' : Cells} {r e : Ref} {rs ks : List Ref} {es : List (Ref × Ref)}

theorem isText_of_spans (h : Spans cells r v ks) (s : String) : cells.isText r s = isText v s := by
  cases h with
  | scalar h =>
    rename_i w
    rw [Cells.isText, scalar?, get_of_getElem? h]
    cases w <;> simp [Scalar.same, isText]
  | list h _ | pair h _ _ | mapping h _ | set h _ =>
    rw [Cells.isText, scalar?, get_of_getElem? h]
    rfl

/-- What a text stands for among entries of cells spans what it stands for among those of values. --/
theorem lookup?_of_spans (key : String) : {es : List (Ref × Ref)} → {entries : List (Value × Value)} → {ks : List Ref} →
    SpansEntries cells es entries ks →
    (cells.lookup? es key = none ∧ valueOf? entries key = none) ∨
      ∃ r v kr, cells.lookup? es key = some r ∧ valueOf? entries key = some v ∧ Spans cells r v kr ∧ kr.Sublist ks
  | _, _, _, .nil => .inl ⟨rfl, rfl⟩
  | (a, b) :: es, (k, v) :: entries, _, .cons (j := js) (k := ks) (l := ls) hk hv hs => by
    have hcons : cells.lookup? ((a, b) :: es) key = if isText k key then some b else cells.lookup? es key := by
      rw [Cells.lookup?, Cells.lookup?, List.find?_cons, isText_of_spans hk]
      cases isText k key <;> rfl
    rw [hcons, valueOf?_cons]
    cases isText k key
    · rcases lookup?_of_spans key hs with ⟨h₁, h₂⟩ | ⟨r, w, kr, h₁, h₂, h₃, h₄⟩
      · exact .inl ⟨h₁, h₂⟩
      · exact .inr ⟨r, w, kr, h₁, h₂, h₃, h₄.trans ((List.sublist_append_right ks ls).trans (List.sublist_append_right js _))⟩
    · exact .inr ⟨b, v, ks, rfl, rfl, hv, (List.sublist_append_left ks ls).trans (List.sublist_append_right js _)⟩

/-- Changing one container changes what a cell spans in a given way, and lists no container that was not listed. --/
def Turns (cells cells' : Cells) (e r : Ref) (f : Value → Value) : Prop :=
  ∀ {v ks}, Spans cells r v ks → ks.Nodup → e ∈ ks ∧ ∃ ks', Spans cells' r (f v) ks' ∧ ks'.Sublist ks

/-- A change within one item of a row. --/
theorem spansAll_modify {f : Value → Value} (hkeep : KeepsBut cells cells' e) (hturn : Turns cells cells' e r f) :
    {rs : List Ref} → {items : List Value} → {ks : List Ref} → {i : Nat} → SpansAll cells rs items ks → ks.Nodup →
    rs[i]? = some r → e ∈ ks ∧ ∃ ks', SpansAll cells' rs (items.modify i f) ks' ∧ ks'.Sublist ks
  | _, _, _, _, .nil, _, hr => by cases hr
  | _ :: _, _ :: _, _, 0, .cons (k := ks) (l := ls) h hs, hnodup, hr => by
    obtain rfl := Option.some.inj hr
    obtain ⟨hks, -, hdisjoint⟩ := List.nodup_append'.mp hnodup
    obtain ⟨he, ks', h', hsub⟩ := hturn h hks
    exact ⟨List.mem_append_left _ he, ks' ++ ls, .cons h' (hs.frame hkeep (hdisjoint he)),
      hsub.append (List.Sublist.refl ls)⟩
  | _ :: _, _ :: _, _, i + 1, .cons (k := ks) (l := ls) h hs, hnodup, hr => by
    obtain ⟨-, hls, hdisjoint⟩ := List.nodup_append'.mp hnodup
    obtain ⟨he, ls', hs', hsub⟩ := spansAll_modify hkeep hturn hs hls hr
    exact ⟨List.mem_append_right _ he, ks ++ ls', .cons (h.frame hkeep fun hk => hdisjoint hk he) hs',
      (List.Sublist.refl ks).append hsub⟩

/-- A change within the value of a text among entries. --/
theorem spansEntries_alter {f : Value → Value} (hkeep : KeepsBut cells cells' e) (hturn : Turns cells cells' e r f) :
    {es : List (Ref × Ref)} → {entries : List (Value × Value)} → {ks : List Ref} → SpansEntries cells es entries ks →
    ks.Nodup → cells.lookup? es key = some r →
    e ∈ ks ∧ ∃ ks', SpansEntries cells' es (alter entries key f) ks' ∧ ks'.Sublist ks
  | _, _, _, .nil, _, hr => by cases hr
  | (a, b) :: es, (k, v) :: entries, _, .cons (j := js) (k := ks) (l := ls) hk hv hs, hnodup, hr => by
    obtain ⟨-, hrest, hjs⟩ := List.nodup_append'.mp hnodup
    obtain ⟨hks, hls, hdisjoint⟩ := List.nodup_append'.mp hrest
    have hcons : cells.lookup? ((a, b) :: es) key = if isText k key then some b else cells.lookup? es key := by
      rw [Cells.lookup?, Cells.lookup?, List.find?_cons, isText_of_spans hk]
      cases isText k key <;> rfl
    rw [hcons] at hr
    rw [alter]
    cases htext : isText k key
    · rw [htext, if_neg Bool.false_ne_true] at hr
      obtain ⟨he, ls', hs', hsub⟩ := spansEntries_alter hkeep hturn hs hls hr
      have hek : e ∈ ks ++ ls := List.mem_append_right _ he
      exact ⟨List.mem_append_right _ hek, _, .cons (hk.frame hkeep fun h => hjs h hek)
        (hv.frame hkeep fun h => hdisjoint h he) hs',
        (List.Sublist.refl js).append ((List.Sublist.refl ks).append hsub)⟩
    · rw [htext, if_pos rfl] at hr
      obtain rfl := Option.some.inj hr
      obtain ⟨he, ks', hv', hsub⟩ := hturn hv hks
      have hek : e ∈ ks ++ ls := List.mem_append_left _ he
      exact ⟨List.mem_append_right _ hek, _, .cons (hk.frame hkeep fun h => hjs h hek) hv'
        (hs.frame hkeep fun h => hdisjoint he h),
        (List.Sublist.refl js).append (hsub.append (List.Sublist.refl ls))⟩

/-! ### Writing into copies -/

theorem getElem?_of_entriesOf? (h : entriesOf? cells r = some es) : cells[r]? = some (.mapping es) := by
  unfold entriesOf? at h
  split at h
  · rename_i entries hr
    cases h
    exact getElem?_of_get hr (by simp)
  · cases h

theorem get_of_entriesOf? (h : entriesOf? cells r = some es) : cells.get r = .mapping es :=
  get_of_getElem? (getElem?_of_entriesOf? h)

theorem lt_size_of_entriesOf? (h : entriesOf? cells r = some es) : r < cells.size :=
  lt_size_of_getElem? (getElem?_of_entriesOf? h)

/-- The cells with two texts behind them, the name of the tag and a tag. --/
def withTag (cells : Cells) (s : String) : Cells :=
  (cells.push (.scalar (.str tagKey))).push (.scalar (.str s))

theorem writeTag_eq (h : entriesOf? cells e = some es) (s : String) :
    writeTag cells e s = (withTag cells s).put e
      (.mapping ((withTag cells s).insertEntry es cells.size (cells.size + 1))) := by
  simp only [writeTag, h, withTag]

theorem size_withTag (cells : Cells) (s : String) : (withTag cells s).size = cells.size + 2 := by
  rw [withTag, Array.size_push, Array.size_push]

theorem get_withTag_of_lt (h : r < cells.size) (s : String) : (withTag cells s).get r = cells.get r := by
  rw [withTag, get_push_of_lt (Array.size_push _ ▸ Nat.lt_succ_of_lt h), get_push_of_lt h]

theorem get_withTag_key (cells : Cells) (s : String) : (withTag cells s).get cells.size = .scalar (.str tagKey) := by
  rw [withTag, get_push_of_lt (Array.size_push _ ▸ Nat.lt_succ_self _), get_push_self]

theorem get_withTag_text (cells : Cells) (s : String) : (withTag cells s).get (cells.size + 1) = .scalar (.str s) := by
  have h := get_push_self (cells.push (.scalar (.str tagKey))) (.scalar (.str s))
  rwa [Array.size_push] at h

/-- Inserting a tag among entries of cells is inserting it among those of values. --/
theorem spansEntries_insertEntry {a b : Ref} (ha : cells[a]? = some (.scalar (.str tagKey)))
    (hb : cells[b]? = some (.scalar (.str s))) (h : SpansEntries cells es entries ks) (hnew : ∀ e ∈ es, e.1 ≠ a) :
    ∃ ks', SpansEntries cells (cells.insertEntry es a b) (tagEntries entries s) ks' ∧ ks'.Sublist ks := by
  have hkey : cells.scalar? a = some (.str tagKey) := by rw [Cells.scalar?, get_of_getElem? ha]
  induction es generalizing entries ks with
  | nil =>
    cases h with
    | nil => exact ⟨[], .cons (.scalar ha) (.scalar hb) .nil, List.Sublist.refl []⟩
  | cons e es ih =>
    cases h with
    | @cons c d _ k v entries js ks ls hk hv hs =>
      have hsame : cells.sameKey c a = isText k tagKey := by
        rw [Cells.sameKey_of_str (hnew _ List.mem_cons_self) hkey, isText_of_spans hk]
      rw [Cells.insertEntry, tagEntries, hsame]
      cases isText k tagKey
      · obtain ⟨ls', hs', hsub⟩ := ih hs fun e he => hnew e (List.mem_cons_of_mem _ he)
        exact ⟨_, .cons hk hv hs', (List.Sublist.refl js).append ((List.Sublist.refl ks).append hsub)⟩
      · exact ⟨_, .cons hk (.scalar hb) hs, (List.Sublist.refl js).append (List.sublist_append_right ks ls)⟩

/-- Writing a tag keeps all cells but the entry, whose value gets the tag. --/
theorem writeTag_of_spans (h : entriesOf? cells e = some es) (s : String) :
    KeepsBut cells (writeTag cells e s) e ∧ Turns cells (writeTag cells e s) e e (tagItem (some s)) := by
  have he := getElem?_of_entriesOf? h
  have hcontainer : ∀ w, cells[e]? ≠ some (.scalar w) := by simp [he]
  have hpush : KeepsBut cells (withTag cells s) e := by
    have hfirst := keepsBut_push hcontainer (.scalar (.str tagKey))
    exact hfirst.trans (keepsBut_push (by simp [getElem?_push_of_eq_some he]) _)
  have hmoreE : (withTag cells s)[e]? = some (.mapping es) := getElem?_push_of_eq_some (getElem?_push_of_eq_some he _) _
  have hput : KeepsBut (withTag cells s) (writeTag cells e s) e := by
    rw [writeTag_eq h]
    exact keepsBut_put (by simp [hmoreE]) _
  refine ⟨hpush.trans hput, fun {v ks} hspans hnodup => ?_⟩
  cases hspans with
  | mapping he' hs =>
    rename_i entries ks
    rw [he] at he'
    cases he'
    obtain ⟨hout, -⟩ := List.nodup_cons.mp hnodup
    have hkey := getElem?_of_get (get_withTag_key cells s) (by simp)
    have htext := getElem?_of_get (get_withTag_text cells s) (by simp)
    obtain ⟨ks', hs', hsub⟩ := spansEntries_insertEntry hkey htext (hs.frame hpush hout)
      fun e he => Nat.ne_of_lt (hs.key_lt_size e he)
    refine ⟨List.mem_cons_self, e :: ks', .mapping ?_ (hs'.frame hput fun h => hout (hsub.subset h)), hsub.cons_cons e⟩
    rw [writeTag_eq h, Cells.put, Array.getElem?_setIfInBounds_self_of_lt (lt_size_of_getElem? hmoreE)]
  | _ he' => simp [he] at he'

/-! ### Finding entries in copies -/

theorem isSome_entriesOf?_of_spans (h : Spans cells r v ks) : (entriesOf? cells r).isSome = isMapping v := by
  cases h with
  | scalar h | list h _ | pair h _ _ | mapping h _ | set h _ =>
    rw [entriesOf?, get_of_getElem? h]
    rfl

theorem isNamed_of_spans (h : Spans cells r v ks) (name : String) : isNamed cells name r = bearsName name v := by
  cases h with
  | mapping h hs =>
    rw [isNamed, entriesOf?, get_of_getElem? h, bearsName]
    rcases lookup?_of_spans nameKey hs with ⟨h₁, h₂⟩ | ⟨r, v, kr, h₁, h₂, hv, -⟩
    · simp only [h₁, h₂, Option.map_none]
    · simp only [h₁, h₂, Option.map_some, isText_of_spans hv]
  | scalar h | list h _ | pair h _ _ | set h _ =>
    rw [isNamed, entriesOf?, get_of_getElem? h]
    rfl

theorem findIdx?_of_spansAll {p : Ref → Bool} {q : Value → Bool} (h : ∀ {r v ks}, Spans cells r v ks → p r = q v) :
    {rs : List Ref} → {items : List Value} → {ks : List Ref} → SpansAll cells rs items ks →
    rs.findIdx? p = items.findIdx? q
  | _, _, _, .nil => rfl
  | _, _, _, .cons hv hs => by simp only [List.findIdx?_cons, h hv, findIdx?_of_spansAll h hs]

theorem spans_of_spansAll : {rs : List Ref} → {items : List Value} → {ks : List Ref} → {i : Nat} →
    SpansAll cells rs items ks → rs[i]? = some r → ∃ v kr, items[i]? = some v ∧ Spans cells r v kr ∧ kr.Sublist ks
  | _, _, _, _, .nil, hr => by cases hr
  | _ :: _, v :: _, _, 0, .cons (k := ks) (l := ls) h _, hr => by
    cases hr
    exact ⟨v, ks, rfl, h, List.sublist_append_left ks ls⟩
  | _ :: _, _ :: _, _, i + 1, .cons (k := ks) (l := ls) _ hs, hr => by
    obtain ⟨v, kr, hv, hspans, hsub⟩ := spans_of_spansAll (i := i) hs hr
    exact ⟨v, kr, hv, hspans, hsub.trans (List.sublist_append_right ks ls)⟩

end

section

open Cells

variable {d : Document} {ks rs : List Ref} {slot : Slot} {cells' : Cells} {e : Ref}

/-- The list of entries of a copy, or that there is none, is as in the value. --/
theorem images_of_spans (h : d.cells.Spans d.root v ks) :
    (∃ why, images d = .error why ∧ itemsOf v = .error why) ∨
      ∃ rs items kr, images d = .ok rs ∧ itemsOf v = .ok items ∧ SpansAll d.cells rs items kr ∧ kr.Sublist ks := by
  cases h with
  | scalar h | list h _ | pair h _ _ | set h _ =>
    exact .inl ⟨.notMapping, by rw [images, entriesOf?, get_of_getElem? h], rfl⟩
  | mapping h hs =>
    simp only [images, itemsOf, entriesOf?, get_of_getElem? h]
    rcases lookup?_of_spans imagesKey hs with ⟨h₁, h₂⟩ | ⟨r, w, kr, h₁, h₂, hw, hsub⟩
    · exact .inl ⟨.imagesMissing, by rw [h₁], by rw [h₂]⟩
    · simp only [h₁, h₂]
      cases hw with
      | scalar hr =>
        rename_i x
        simp only [get_of_getElem? hr]
        cases x
        · exact .inl ⟨_, rfl, rfl⟩
        all_goals exact .inl ⟨_, rfl, rfl⟩
      | list hr hitems =>
        simp only [get_of_getElem? hr]
        cases hitems with
        | nil => exact .inl ⟨_, rfl, rfl⟩
        | cons hv hs => exact .inr ⟨_, _, _, rfl, rfl, .cons hv hs, ((List.sublist_cons_self r _).trans hsub).cons _⟩
      | pair hr _ _ | mapping hr _ | set hr _ =>
        simp only [get_of_getElem? hr]
        exact .inl ⟨_, rfl, rfl⟩

/-- What a selector addresses in a copy, or why it addresses nothing, is as in the value. --/
theorem locate_of_spans (h : d.cells.Spans d.root v ks) (selector : Option String) :
    (∃ why, locate d selector = .error why ∧ addressed v selector = .error why) ∨
      ∃ slot rs, locate d selector = .ok slot ∧ addressed v selector = .ok slot.index ∧ images d = .ok rs ∧
        rs[slot.index]? = some slot.cell := by
  rcases images_of_spans h with ⟨why, h₁, h₂⟩ | ⟨rs, items, kr, h₁, h₂, hs, -⟩
  · exact .inl ⟨why, by rw [locate, h₁]; rfl, by rw [addressed, h₂]; rfl⟩
  · simp only [locate, h₁, addressed, h₂, ok_bind]
    cases selector with
    | none =>
      cases hs with
      | nil => exact .inl ⟨_, rfl, rfl⟩
      | cons hv hs =>
        rename_i r rs w items k l
        simp only [select, indexIn, isSome_entriesOf?_of_spans hv]
        cases isMapping w
        · exact .inl ⟨_, rfl, rfl⟩
        · exact .inr ⟨⟨0, r⟩, _, rfl, rfl, rfl, rfl⟩
    | some name =>
      simp only [select, indexIn, findIdx?_of_spansAll (fun h => isNamed_of_spans h name) hs]
      cases hi : items.findIdx? (bearsName name) with
      | none => exact .inl ⟨_, rfl, rfl⟩
      | some i =>
        refine .inr ⟨_, rs, rfl, rfl, rfl, ?_⟩
        rw [← findIdx?_of_spansAll (fun h => isNamed_of_spans h name) hs] at hi
        obtain ⟨hlt, -⟩ := List.findIdx?_eq_some_iff_getElem.mp hi
        simp [hlt]

/-- A selector addresses the same entry in a copy as in the value. --/
theorem locate_of_isCopyOf (h : d.IsCopyOf v) (selector : Option String) :
    (locate d selector).map Slot.index = addressed v selector := by
  obtain ⟨ks, hspans, -⟩ := h
  rcases locate_of_spans hspans selector with ⟨why, h₁, h₂⟩ | ⟨slot, -, h₁, h₂, -, -⟩
  · rw [h₁, h₂, map_error]
  · rw [h₁, h₂, map_ok]

theorem tagValue_of_spans {e : Ref} (h : d.cells.Spans e w ks) (hnodup : ks.Nodup) : tagValue d e = itemTag w := by
  cases h with
  | mapping h hs =>
    obtain ⟨-, hks⟩ := List.nodup_cons.mp hnodup
    rw [tagValue, tagCell?, entriesOf?, get_of_getElem? h, itemTag, Option.bind_some]
    rcases lookup?_of_spans tagKey hs with ⟨h₁, h₂⟩ | ⟨r, v, kr, h₁, h₂, hv, hsub⟩
    · simp only [h₁, h₂, Option.getD_none]
    · simp only [h₁, h₂, Option.getD_some]
      exact hv.value (hks.sublist hsub)
  | scalar h | list h _ | pair h _ _ | set h _ =>
    rw [tagValue, tagCell?, entriesOf?, get_of_getElem? h]
    rfl

/-- A change within one of the entries is one within the whole. --/
theorem turns_of_images {i : Nat} (hrs : images d = .ok rs) (he : rs[i]? = some e)
    (hkeep : KeepsBut d.cells cells' e) (hturn : Turns d.cells cells' e e (tagItem (some s))) :
    Turns d.cells cells' e d.root (tagged (only i s)) := by
  intro v ks hspans hnodup
  -- The change is carried up in two steps, from the entry to the list and from the list to the root.
  have hlist : ∀ {r}, d.cells[r]? = some (.list rs) → Turns d.cells cells' e r (tagItems (only i s)) := by
    intro r hr v ks hspans hnodup
    cases hspans with
    | list h hs =>
      rename_i items ks
      rw [hr] at h
      cases h
      obtain ⟨hout, hks⟩ := List.nodup_cons.mp hnodup
      obtain ⟨hmem, ks', hs', hsub⟩ := spansAll_modify hkeep hturn hs hks he
      have hne : r ≠ e := fun h => hout (h ▸ hmem)
      rw [tagItems, mapIdx_only]
      exact ⟨List.mem_cons_of_mem _ hmem, r :: ks', .list (hkeep.kept r _ hne hr) hs', hsub.cons_cons r⟩
    | _ h => simp [hr] at h
  cases hspans with
  | mapping h hs =>
    rename_i es entries ks
    obtain ⟨hout, hks⟩ := List.nodup_cons.mp hnodup
    simp only [images, entriesOf?, get_of_getElem? h] at hrs
    split at hrs
    · cases hrs
    · rename_i r hr
      have hcell : d.cells[r]? = some (.list rs) := by
        split at hrs
        · cases hrs
        · cases hrs
        · rename_i hlist
          cases hrs
          exact getElem?_of_get hlist (by simp)
        · cases hrs
      obtain ⟨hmem, ks', hs', hsub⟩ := spansEntries_alter hkeep (hlist hcell) hs hks hr
      have hne : d.root ≠ e := fun h => hout (h ▸ hmem)
      exact ⟨List.mem_cons_of_mem _ hmem, d.root :: ks', .mapping (hkeep.kept _ _ hne h) hs', hsub.cons_cons _⟩
  | scalar h | list h _ | pair h _ _ | set h _ =>
    rw [images, entriesOf?, get_of_getElem? h] at hrs
    cases hrs

/-- The tag that is found in a copy is the one in the value, and writing one gives a copy of the value with it. --/
theorem tag_of_isCopyOf (h : d.IsCopyOf v) (hslot : locate d selector = .ok slot) :
    addressed v selector = .ok slot.index ∧ tagValue d slot.cell = tagAt v slot.index ∧
      ∀ s, (Document.mk (writeTag d.cells slot.cell s) d.root).IsCopyOf (tagged (only slot.index s) v) := by
  obtain ⟨ks, hspans, hnodup⟩ := h
  rcases locate_of_spans hspans selector with ⟨why, hwhy, -⟩ | ⟨slot', rs, hslot', haddressed, hrs, hget⟩
  · rw [hslot] at hwhy
    cases hwhy
  · rw [hslot] at hslot'
    cases hslot'
    rcases images_of_spans hspans with ⟨why, hwhy, -⟩ | ⟨rs', items, kr, hrs', hitems, hall, hsub⟩
    · rw [hrs] at hwhy
      cases hwhy
    · obtain rfl := Except.ok.inj (hrs.symm.trans hrs')
      obtain ⟨w, kw, hw, hcell, hsubw⟩ := spans_of_spansAll hall hget
      have hindex : indexIn items selector = .ok slot.index := by
        rw [← haddressed, addressed, hitems]
        rfl
      obtain ⟨w', hw', hmapping⟩ := isMapping_of_indexIn hindex
      obtain rfl := Option.some.inj (hw.symm.trans hw')
      obtain ⟨es, hes⟩ := Option.isSome_iff_exists.mp ((isSome_entriesOf?_of_spans hcell).trans hmapping)
      refine ⟨haddressed, ?_, fun s => ?_⟩
      · rw [tagValue_of_spans hcell (hnodup.sublist (hsubw.trans hsub)), tagAt, hitems]
        simp only [hw, Option.map_some, Option.getD_some]
      · obtain ⟨hkeep, hturn⟩ := writeTag_of_spans hes s
        obtain ⟨-, ks', hspans', hsub'⟩ := turns_of_images hrs hget hkeep hturn hspans hnodup
        exact ⟨ks', hspans', hnodup.sublist hsub'⟩

end

end Retag.Manifest

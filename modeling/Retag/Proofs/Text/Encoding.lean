import Retag.Text.Source

/-! Texts written in UTF-8 and read again. Every character is read back from its bytes, and bytes that are read as a
    text are the bytes of this text; so a text without carriage returns whose characters may stand in markup is read back
    as a whole. -/

namespace Retag.Text

/-! ### One character -/

theorem toNat_byte {n : Nat} (h : n < 256) : (UInt8.ofNat n).toNat = n :=
  UInt8.toNat_ofNat_of_lt' h

theorem continuation?_byte {n : Nat} (h : n < 64) : continuation? (UInt8.ofNat (n + 0x80)) = some n := by
  rw [continuation?, toNat_byte (by omega), if_pos, Nat.add_sub_cancel]
  simp only [Bool.and_eq_true, decide_eq_true_eq]
  omega

theorem charAtLeast?_toNat {c : Char} {least : Nat} (h : least ≤ c.toNat) : charAtLeast? least c.toNat = some c := by
  have hvalid : c.toNat.isValidChar := c.valid
  simp [charAtLeast?, hvalid, h]

/-- Whether the first byte has the mark of a width. --/
theorem guard_byte {n low high : Nat} (h : n < 256) :
    (decide (low ≤ (UInt8.ofNat n).toNat) && decide ((UInt8.ofNat n).toNat < high)) = decide (low ≤ n ∧ n < high) := by
  rw [toNat_byte h, Bool.decide_and]

theorem twoBytes?_eq_none {n : Nat} (h : n < 256) (hn : n < 0xc0 ∨ 0xe0 ≤ n) (b : UInt8) :
    twoBytes? (UInt8.ofNat n) b = none := by
  rw [twoBytes?, guard_byte h, decide_eq_false (by omega)]
  rfl

theorem threeBytes?_eq_none {n : Nat} (h : n < 256) (hn : n < 0xe0 ∨ 0xf0 ≤ n) (b c : UInt8) :
    threeBytes? (UInt8.ofNat n) b c = none := by
  rw [threeBytes?, guard_byte h, decide_eq_false (by omega)]
  rfl

theorem twoBytes?_eq {c : Char} {m k : Nat} (hm : m < 0x20) (hk : k < 0x40) (hc : m * 64 + k = c.toNat)
    (hleast : 0x80 ≤ c.toNat) : twoBytes? (UInt8.ofNat (m + 0xc0)) (UInt8.ofNat (k + 0x80)) = some c := by
  rw [twoBytes?, guard_byte (by omega), decide_eq_true (by omega), continuation?_byte hk, toNat_byte (by omega),
    Nat.add_sub_cancel]
  show charAtLeast? 0x80 (m * 64 + k) = some c
  rw [hc, charAtLeast?_toNat hleast]

theorem threeBytes?_eq {c : Char} {m k l : Nat} (hm : m < 0x10) (hk : k < 0x40) (hl : l < 0x40)
    (hc : (m * 64 + k) * 64 + l = c.toNat) (hleast : 0x800 ≤ c.toNat) :
    threeBytes? (UInt8.ofNat (m + 0xe0)) (UInt8.ofNat (k + 0x80)) (UInt8.ofNat (l + 0x80)) = some c := by
  rw [threeBytes?, guard_byte (by omega), decide_eq_true (by omega), continuation?_byte hk, continuation?_byte hl,
    toNat_byte (by omega), Nat.add_sub_cancel]
  show charAtLeast? 0x800 ((m * 64 + k) * 64 + l) = some c
  rw [hc, charAtLeast?_toNat hleast]

theorem fourBytes?_eq {c : Char} {m k l j : Nat} (hm : m < 0x08) (hk : k < 0x40) (hl : l < 0x40) (hj : j < 0x40)
    (hc : ((m * 64 + k) * 64 + l) * 64 + j = c.toNat) (hleast : 0x10000 ≤ c.toNat) :
    fourBytes? (UInt8.ofNat (m + 0xf0)) (UInt8.ofNat (k + 0x80)) (UInt8.ofNat (l + 0x80)) (UInt8.ofNat (j + 0x80)) =
      some c := by
  rw [fourBytes?, guard_byte (by omega), decide_eq_true (by omega), continuation?_byte hk, continuation?_byte hl,
    continuation?_byte hj, toNat_byte (by omega), Nat.add_sub_cancel]
  show charAtLeast? 0x10000 (((m * 64 + k) * 64 + l) * 64 + j) = some c
  rw [hc, charAtLeast?_toNat hleast]

theorem not_lt_byte {n : Nat} (h : n < 256) (hn : 0x80 ≤ n) : ¬UInt8.ofNat n < 0x80 := by
  rw [UInt8.lt_iff_toNat_lt, toNat_byte h]
  exact Nat.not_lt.mpr hn

/-- The bytes of a character are read as the character. --/
theorem decodeUtf8_char (c : Char) (rest : List UInt8) :
    decodeUtf8 (String.utf8EncodeChar c ++ rest) = (decodeUtf8 rest).cons c := by
  have hc : c.val.toNat = c.toNat := rfl
  have hmax : c.toNat < 0x110000 := by
    have := c.valid
    rw [UInt32.isValidChar, Nat.isValidChar, hc] at this
    omega
  rw [String.utf8EncodeChar]
  simp only [hc]
  split
  · rename_i h
    have hlt : UInt8.ofNat c.toNat < 0x80 := by
      rw [UInt8.lt_iff_toNat_lt, toNat_byte (by omega)]
      exact Nat.lt_succ_of_le h
    rw [List.singleton_append, decodeUtf8.eq_def]
    simp only [hlt, if_true, toNat_byte (show c.toNat < 256 by omega), Char.ofNat_toNat]
  · split
    · rename_i h₁ h
      simp only [List.cons_append, List.nil_append]
      have hlt := @not_lt_byte (c.toNat / 64 % 0x20 + 0xc0) (by omega) (by omega)
      rw [decodeUtf8.eq_def]
      simp only [hlt, if_false, twoBytes?_eq (c := c) (Nat.mod_lt (c.toNat / 64) (by decide)) (Nat.mod_lt c.toNat (by decide))
        (by omega) (by omega)]
    · split
      · rename_i h₁ h₂ h
        simp only [List.cons_append, List.nil_append]
        have hlt := @not_lt_byte (c.toNat / 4096 % 0x10 + 0xe0) (by omega) (by omega)
        rw [decodeUtf8.eq_def]
        simp only [hlt, if_false, twoBytes?_eq_none (show c.toNat / 4096 % 0x10 + 0xe0 < 256 by omega) (by omega),
          threeBytes?_eq (c := c) (Nat.mod_lt (c.toNat / 4096) (by decide)) (Nat.mod_lt (c.toNat / 64) (by decide))
            (Nat.mod_lt c.toNat (by decide)) (by omega) (by omega)]
      · rename_i h₁ h₂ h₃
        simp only [List.cons_append, List.nil_append]
        have hlt := @not_lt_byte (c.toNat / 262144 % 0x08 + 0xf0) (by omega) (by omega)
        rw [decodeUtf8.eq_def]
        simp only [hlt, if_false, twoBytes?_eq_none (show c.toNat / 262144 % 0x08 + 0xf0 < 256 by omega) (by omega),
          threeBytes?_eq_none (show c.toNat / 262144 % 0x08 + 0xf0 < 256 by omega) (by omega),
          fourBytes?_eq (c := c) (Nat.mod_lt (c.toNat / 262144) (by decide)) (Nat.mod_lt (c.toNat / 4096) (by decide))
            (Nat.mod_lt (c.toNat / 64) (by decide)) (Nat.mod_lt c.toNat (by decide)) (by omega) (by omega)]

/-- A text is read back from its bytes. --/
theorem decodeUtf8_encode (cs : List Char) : decodeUtf8 (encode cs) = ⟨cs, []⟩ := by
  induction cs with
  | nil => rfl
  | cons c cs ih =>
    rw [encode, List.flatMap_cons, decodeUtf8_char]
    rw [encode] at ih
    rw [ih]
    rfl

/-! ### Bytes that are read -/

section

variable {a b c d : UInt8} {x : Char} {n k least : Nat}

theorem eq_byte (h : n = a.toNat) : UInt8.ofNat n = a := by
  rw [h, UInt8.ofNat_toNat]

theorem continuation?_eq_some (h : continuation? b = some k) : k < 64 ∧ b.toNat = k + 0x80 := by
  unfold continuation? at h
  split at h
  · rename_i hb
    simp only [Bool.and_eq_true, decide_eq_true_eq] at hb
    obtain rfl := Option.some.inj h
    omega
  · cases h

theorem charAtLeast?_eq_some (h : charAtLeast? least n = some x) : least ≤ n ∧ x.toNat = n := by
  unfold charAtLeast? at h
  split at h
  · rename_i hn
    simp only [Bool.and_eq_true, decide_eq_true_eq] at hn
    obtain rfl := Option.some.inj h
    refine ⟨hn.2, ?_⟩
    rw [Char.ofNat, dif_pos hn.1]
    rfl
  · cases h

theorem bounds_of_guard {low high : Nat} {u : Unit}
    (h : (guard ((decide (low ≤ n) && decide (n < high)) = true) : Option Unit) = some u) : low ≤ n ∧ n < high := by
  unfold guard at h
  split at h
  · rename_i hn
    simpa using hn
  · cases h

theorem utf8EncodeChar_of_twoBytes? (h : twoBytes? a b = some x) : String.utf8EncodeChar x = [a, b] := by
  obtain ⟨⟨⟩, hguard, h⟩ := Option.bind_eq_some_iff.mp h
  obtain ⟨k, hk, h⟩ := Option.bind_eq_some_iff.mp h
  obtain ⟨hk, hb⟩ := continuation?_eq_some hk
  obtain ⟨hleast, hx⟩ := charAtLeast?_eq_some h
  have ha := bounds_of_guard hguard
  have hv : x.val.toNat = x.toNat := rfl
  rw [String.utf8EncodeChar]
  simp only [hv]
  rw [if_neg (by omega), if_pos (by omega), eq_byte (a := a) (by omega), eq_byte (a := b) (by omega)]

theorem utf8EncodeChar_of_threeBytes? (h : threeBytes? a b c = some x) : String.utf8EncodeChar x = [a, b, c] := by
  obtain ⟨⟨⟩, hguard, h⟩ := Option.bind_eq_some_iff.mp h
  obtain ⟨k, hk, h⟩ := Option.bind_eq_some_iff.mp h
  obtain ⟨l, hl, h⟩ := Option.bind_eq_some_iff.mp h
  obtain ⟨hk, hb⟩ := continuation?_eq_some hk
  obtain ⟨hl, hc⟩ := continuation?_eq_some hl
  obtain ⟨hleast, hx⟩ := charAtLeast?_eq_some h
  have ha := bounds_of_guard hguard
  have hv : x.val.toNat = x.toNat := rfl
  rw [String.utf8EncodeChar]
  simp only [hv]
  rw [if_neg (by omega), if_neg (by omega), if_pos (by omega), eq_byte (a := a) (by omega), eq_byte (a := b) (by omega),
    eq_byte (a := c) (by omega)]

theorem utf8EncodeChar_of_fourBytes? (h : fourBytes? a b c d = some x) :
    String.utf8EncodeChar x = [a, b, c, d] := by
  obtain ⟨⟨⟩, hguard, h⟩ := Option.bind_eq_some_iff.mp h
  obtain ⟨k, hk, h⟩ := Option.bind_eq_some_iff.mp h
  obtain ⟨l, hl, h⟩ := Option.bind_eq_some_iff.mp h
  obtain ⟨m, hm, h⟩ := Option.bind_eq_some_iff.mp h
  obtain ⟨hk, hb⟩ := continuation?_eq_some hk
  obtain ⟨hl, hc⟩ := continuation?_eq_some hl
  obtain ⟨hm, hd⟩ := continuation?_eq_some hm
  obtain ⟨hleast, hx⟩ := charAtLeast?_eq_some h
  have ha := bounds_of_guard hguard
  have hv : x.val.toNat = x.toNat := rfl
  rw [String.utf8EncodeChar]
  simp only [hv]
  rw [if_neg (by omega), if_neg (by omega), if_neg (by omega), eq_byte (a := a) (by omega), eq_byte (a := b) (by omega),
    eq_byte (a := c) (by omega), eq_byte (a := d) (by omega)]

theorem utf8EncodeChar_of_lt (h : a < 0x80) : String.utf8EncodeChar (Char.ofNat a.toNat) = [a] := by
  rw [UInt8.lt_iff_toNat_lt] at h
  have h' : a.toNat < 0x80 := h
  have hvalid : a.toNat.isValidChar := Or.inl (by omega)
  have hv : (Char.ofNat a.toNat).val.toNat = a.toNat := by
    rw [Char.ofNat, dif_pos hvalid]
    rfl
  rw [String.utf8EncodeChar]
  simp only [hv]
  rw [if_pos (by omega), eq_byte rfl]

theorem encode_cons (x : Char) (d : Decoded) :
    encode (d.cons x).chars ++ (d.cons x).rest = String.utf8EncodeChar x ++ (encode d.chars ++ d.rest) := by
  rw [Decoded.cons, encode, List.flatMap_cons, List.append_assoc]
  rfl

/-- What is read and what is left are the bytes again. --/
theorem encode_decodeUtf8 (bs : List UInt8) : encode (decodeUtf8 bs).chars ++ (decodeUtf8 bs).rest = bs := by
  fun_induction decodeUtf8 bs with
  | case1 => rfl
  | case2 a as ha ih => rw [encode_cons, ih, utf8EncodeChar_of_lt ha, List.singleton_append]
  | case4 a ha b bs x hx ih =>
    rw [encode_cons, ih, utf8EncodeChar_of_twoBytes? hx]
    rfl
  | case6 a ha b h₂ c cs x hx ih =>
    rw [encode_cons, ih, utf8EncodeChar_of_threeBytes? hx]
    rfl
  | case8 a ha b h₂ c h₃ d ds x hx ih =>
    rw [encode_cons, ih, utf8EncodeChar_of_fourBytes? hx]
    rfl
  | _ => rfl

/-- Bytes are a text exactly if they are what the text is written as. --/
theorem text?_decodeUtf8_eq_some {bs : List UInt8} {cs : List Char} :
    (decodeUtf8 bs).text? = some cs ↔ bs = encode cs := by
  constructor
  · intro h
    have hbytes := encode_decodeUtf8 bs
    unfold Decoded.text? at h
    split at h
    · rename_i hrest
      obtain rfl := Option.some.inj h
      rw [List.isEmpty_iff.mp hrest, List.append_nil] at hbytes
      exact hbytes.symm
    · cases h
  · rintro rfl
    rw [decodeUtf8_encode]
    rfl

end

/-! ### Sources -/

theorem unifyLineEnds_cons {c : Char} (hc : c ≠ '\r') (cs : List Char) :
    unifyLineEnds (c :: cs) = c :: unifyLineEnds cs := by
  rw [unifyLineEnds]
  · rintro rest rfl
    exact absurd rfl hc
  · rintro rfl
    exact absurd rfl hc

theorem unifyLineEnds_eq {cs : List Char} (h : '\r' ∉ cs) : unifyLineEnds cs = cs := by
  induction cs with
  | nil => rfl
  | cons c cs ih =>
    have hc : c ≠ '\r' := fun hc => h (hc ▸ List.mem_cons_self)
    rw [unifyLineEnds_cons hc, ih fun hcs => h (List.mem_cons_of_mem _ hcs)]

/-- Bytes are a text in an encoding, behind a byte order mark if this provides for one. --/
def Encodes (encoding : Encoding) (bytes : List UInt8) (cs : List Char) : Prop :=
  ∃ e mark rest, start encoding bytes = .plain e mark rest ∧ (decode e rest).text? = some cs

theorem encodes_encode (cs : List Char) : Encodes .utf8 (encode cs) cs :=
  ⟨.utf8, 0, encode cs, rfl, text?_decodeUtf8_eq_some.mpr rfl⟩

/-- The source of a text is its characters, with one line feed for every line end. --/
theorem Source.ofBytes_of_encodes {encoding : Encoding} {bytes : List UInt8} {cs : List Char}
    (h : Encodes encoding bytes cs) : ofBytes encoding bytes = ofChars (unifyLineEnds cs) := by
  obtain ⟨e, mark, rest, hstart, htext⟩ := h
  simp only [Decoded.text?, Option.ite_none_right_eq_some, Option.some.injEq] at htext
  rw [ofBytes, hstart]
  simp only [ofMarked, htext.1, htext.2, if_true]

/-- A text that can be read as markup at all is read back as it was written. --/
theorem Source.ofBytes_encode {cs : List Char} (h : ∀ x ∈ cs, isMarkupChar x = true) (hr : '\r' ∉ cs) :
    ofBytes .utf8 (encode cs) = ⟨cs, .complete⟩ := by
  have hall : cs.takeWhile isMarkupChar = cs := by
    simpa using @List.takeWhile_append_of_pos _ isMarkupChar cs [] h
  simp only [ofBytes_of_encodes (encodes_encode cs), unifyLineEnds_eq hr, ofChars, hall, if_true]

end Retag.Text

import Retag.Text.Base64
import Retag.Text.CodePage

/-! Text encodings. `decode` reads as many characters as the bytes hold before the first ones that are no character,
    and keeps the bytes that are left; `encode` writes a text in UTF-8. -/

namespace Retag.Text

inductive ByteOrder where
  /-- The lowest byte is the first. --/
  | little
  /-- The highest byte is the first. --/
  | big
  deriving DecidableEq, Repr

/-- The encodings that a manifest can be read in. --/
inductive Encoding where
  | utf8
  /-- UTF-8, where a byte order mark in front is no part of the text. --/
  | utf8Marked
  /-- ASCII, where a plus starts a row of digits in base 64 that write numbers of two bytes. --/
  | utf7
  /-- Numbers of two bytes; without a given order, a byte order mark in front says it. --/
  | utf16 (order : Option ByteOrder)
  /-- Numbers of four bytes; without a given order, a byte order mark in front says it. --/
  | utf32 (order : Option ByteOrder)
  | ascii
  | latin1
  | page (p : CodePage)
  deriving DecidableEq, Repr

namespace Encoding

/-- The own name and the other names of the encodings that are no pages. Of an encoding that agrees with ASCII on
    its single bytes, and writes more characters with several bytes or with escapes, only the single bytes are
    known. --/
def named : List (List String × Encoding) := [
  (["utf_8", "u8", "utf", "utf8", "utf8_ucs2", "utf8_ucs4", "cp65001"], .utf8),
  (["utf_8_sig"], .utf8Marked),
  (["utf_16", "u16", "utf16"], .utf16 none),
  (["utf_16_le", "unicodelittleunmarked", "utf_16le"], .utf16 (some .little)),
  (["utf_16_be", "unicodebigunmarked", "utf_16be"], .utf16 (some .big)),
  (["utf_32", "u32", "utf32"], .utf32 none),
  (["utf_32_le", "utf_32le"], .utf32 (some .little)),
  (["utf_32_be", "utf_32be"], .utf32 (some .big)),
  (["ascii", "646", "ansi_x3.4_1968", "ansi_x3_4_1968", "ansi_x3.4_1986", "cp367", "csascii", "ibm367", "iso646_us",
    "iso_646.irv_1991", "iso_ir_6", "us", "us_ascii"], .ascii),
  (["latin_1", "8859", "cp819", "csisolatin1", "ibm819", "iso8859", "iso8859_1", "iso_8859_1", "iso_8859_1_1987",
    "iso_ir_100", "l1", "latin", "latin1"], .latin1),
  (["charmap"], .latin1),
  (["raw_unicode_escape"], .latin1),
  (["unicode_escape"], .latin1),
  (["utf_7", "u7", "utf7", "unicode_1_1_utf_7"], .utf7),
  (["big5", "big5_tw", "csbig5", "x_mac_trad_chinese"], .ascii),
  (["big5hkscs", "big5_hkscs", "hkscs"], .ascii),
  (["cp932", "932", "ms932", "mskanji", "ms_kanji"], .ascii),
  (["cp949", "949", "ms949", "uhc"], .ascii),
  (["cp950", "950", "ms950"], .ascii),
  (["euc_jis_2004", "jisx0213", "eucjis2004", "euc_jis2004"], .ascii),
  (["euc_jisx0213", "eucjisx0213"], .ascii),
  (["euc_jp", "eucjp", "ujis", "u_jis"], .ascii),
  (["euc_kr", "euckr", "korean", "ksc5601", "ks_c_5601", "ks_c_5601_1987", "ksx1001", "ks_x_1001", "x_mac_korean"],
    .ascii),
  (["gb18030", "gb18030_2000"], .ascii),
  (["gb2312", "chinese", "csiso58gb231280", "euc_cn", "euccn", "eucgb2312_cn", "gb2312_1980", "gb2312_80",
    "iso_ir_58", "x_mac_simp_chinese"], .ascii),
  (["gbk", "936", "cp936", "ms936"], .ascii),
  (["hz", "hzgb", "hz_gb", "hz_gb_2312"], .ascii),
  (["idna"], .ascii),
  (["iso2022_jp", "csiso2022jp", "iso2022jp", "iso_2022_jp"], .ascii),
  (["iso2022_jp_1", "iso2022jp_1", "iso_2022_jp_1"], .ascii),
  (["iso2022_jp_2", "iso2022jp_2", "iso_2022_jp_2"], .ascii),
  (["iso2022_jp_2004", "iso_2022_jp_2004", "iso2022jp_2004"], .ascii),
  (["iso2022_jp_3", "iso2022jp_3", "iso_2022_jp_3"], .ascii),
  (["iso2022_jp_ext", "iso2022jp_ext", "iso_2022_jp_ext"], .ascii),
  (["iso2022_kr", "csiso2022kr", "iso2022kr", "iso_2022_kr"], .ascii),
  (["johab", "cp1361", "ms1361"], .ascii),
  (["shift_jis", "csshiftjis", "shiftjis", "sjis", "s_jis", "x_mac_japanese"], .ascii),
  (["shift_jis_2004", "shiftjis2004", "sjis_2004", "s_jis_2004"], .ascii),
  (["shift_jisx0213", "shiftjisx0213", "sjisx0213", "s_jisx0213"], .ascii)]

/-- Joins words with underscores. --/
def joined (words : List (List Char)) : String :=
  "_".intercalate (words.map String.ofList)

/-- The words of a name: its rows of letters, digits and full stops. --/
def words : List Char → List (List Char)
  | [] => []
  | c :: rest =>
    if c.isAlphanum || c == '.' then
      match rest, words rest with
      | d :: _, w :: ws => if d.isAlphanum || d == '.' then (c.toLower :: w) :: ws else [c.toLower] :: w :: ws
      | _, ws => [c.toLower] :: ws
    else words rest

/-- Whether one of several names is a given one. Among the other names a full stop counts as an underscore. --/
def answersTo (names : List String) (name : String) : Bool :=
  (names.contains name && !(names.head? == some name && name.contains '.')) ||
    names.tail.contains (String.ofList (name.toList.map fun c => if c == '.' then '_' else c))

/-- The encoding of a name. Case does not matter, nor what stands between words. --/
def ofName? (name : String) : Option Encoding :=
  let key := joined (words name.toList)
  if name == "locale" then some .utf8
  else match named.find? fun e => answersTo e.1 key with
    | some e => some e.2
    | none => (CodePage.all.find? fun p => answersTo p.names key).map .page

end Encoding

/-! ### UTF-8 -/

/-- The low six bits of a byte that continues a character. --/
def continuation? (b : UInt8) : Option Nat :=
  if 0x80 ≤ b.toNat && b.toNat < 0xc0 then some (b.toNat - 0x80) else none

/-- The character of a code point of at least `least`; surrogates are no characters. --/
def charAtLeast? (least n : Nat) : Option Char :=
  if n.isValidChar && least ≤ n then some (Char.ofNat n) else none

/-- The character written by two bytes. --/
def twoBytes? (a b : UInt8) : Option Char := do
  guard (0xc0 ≤ a.toNat && a.toNat < 0xe0)
  charAtLeast? 0x80 ((a.toNat - 0xc0) * 64 + (← continuation? b))

/-- The character written by three bytes. --/
def threeBytes? (a b c : UInt8) : Option Char := do
  guard (0xe0 ≤ a.toNat && a.toNat < 0xf0)
  charAtLeast? 0x800 (((a.toNat - 0xe0) * 64 + (← continuation? b)) * 64 + (← continuation? c))

/-- The character written by four bytes. --/
def fourBytes? (a b c d : UInt8) : Option Char := do
  guard (0xf0 ≤ a.toNat && a.toNat < 0xf8)
  charAtLeast? 0x10000
    ((((a.toNat - 0xf0) * 64 + (← continuation? b)) * 64 + (← continuation? c)) * 64 + (← continuation? d))

/-- The characters before the first bytes that are no character, and the bytes from there on. --/
structure Decoded where
  chars : List Char
  rest : List UInt8
  deriving DecidableEq, Repr

namespace Decoded

/-- One character more in front. --/
def cons (c : Char) (d : Decoded) : Decoded :=
  { d with chars := c :: d.chars }

/-- The whole text, if every byte belongs to a character. --/
def text? (d : Decoded) : Option (List Char) :=
  if d.rest.isEmpty then some d.chars else none

end Decoded

/-- Reads UTF-8. --/
def decodeUtf8 : List UInt8 → Decoded
  | [] => ⟨[], []⟩
  | a :: as =>
    if a < 0x80 then (decodeUtf8 as).cons (Char.ofNat a.toNat)
    else match as with
      | [] => ⟨[], [a]⟩
      | b :: bs => match twoBytes? a b with
        | some x => (decodeUtf8 bs).cons x
        | none => match bs with
          | [] => ⟨[], [a, b]⟩
          | c :: cs => match threeBytes? a b c with
            | some x => (decodeUtf8 cs).cons x
            | none => match cs with
              | [] => ⟨[], [a, b, c]⟩
              | d :: ds => match fourBytes? a b c d with
                | some x => (decodeUtf8 ds).cons x
                | none => ⟨[], a :: b :: c :: d :: ds⟩

/-- Whether bytes are the start of a character in UTF-8, which continuing bytes can complete. --/
def startsUtf8 : List UInt8 → Bool
  | [a] => 0xc2 ≤ a.toNat && a.toNat ≤ 0xf4
  | [a, b] => (threeBytes? a b 0xbf).isSome || (fourBytes? a b 0xbf 0xbf).isSome
  | [a, b, c] => (fourBytes? a b c 0xbf).isSome
  | _ => false

/-! ### Numbers of two and of four bytes -/

namespace ByteOrder

/-- The number that bytes write. --/
def number (order : ByteOrder) (bytes : List UInt8) : Nat :=
  let highestFirst := match order with
    | .little => bytes.reverse
    | .big => bytes
  highestFirst.foldl (fun n b => 256 * n + b.toNat) 0

end ByteOrder

/-- Whether a number is the first half of a character beyond sixteen bits. --/
def isHighHalf (n : Nat) : Bool :=
  0xd800 ≤ n && n < 0xdc00

/-- Whether a number is the second half of a character beyond sixteen bits. --/
def isLowHalf (n : Nat) : Bool :=
  0xdc00 ≤ n && n < 0xe000

/-- Reads numbers of two bytes, where two numbers may be the halves of a character. --/
def decodeUtf16 (order : ByteOrder) : List UInt8 → Decoded
  | a :: b :: rest =>
    let n := order.number [a, b]
    if isHighHalf n then match rest with
      | c :: d :: more =>
        let m := order.number [c, d]
        if isLowHalf m then
          (decodeUtf16 order more).cons (Char.ofNat (0x10000 + (n - 0xd800) * 0x400 + (m - 0xdc00)))
        else ⟨[], a :: b :: rest⟩
      | _ => ⟨[], a :: b :: rest⟩
    else if isLowHalf n then ⟨[], a :: b :: rest⟩
    else (decodeUtf16 order rest).cons (Char.ofNat n)
  | rest => ⟨[], rest⟩

/-- Whether bytes are the start of a character in numbers of two bytes. --/
def startsUtf16 (order : ByteOrder) : List UInt8 → Bool
  | [_] => true
  | [a, b] | [a, b, _] => isHighHalf (order.number [a, b])
  | _ => false

/-- Reads numbers of four bytes. --/
def decodeUtf32 (order : ByteOrder) : List UInt8 → Decoded
  | a :: b :: c :: d :: rest =>
    match charAtLeast? 0 (order.number [a, b, c, d]) with
    | some x => (decodeUtf32 order rest).cons x
    | none => ⟨[], a :: b :: c :: d :: rest⟩
  | rest => ⟨[], rest⟩

/-! ### UTF-7 -/

/-- The last numbers of two bytes in a number, `count` of them. --/
def doubleBytes : Nat → Nat → List Nat
  | 0, _ => []
  | count + 1, n => doubleBytes count (n / 0x10000) ++ [n % 0x10000]

/-- The characters of numbers of two bytes. For half a character without the other stands U+FFFE, which is none. --/
def joinHalves : List Nat → List Char
  | n :: m :: rest =>
    if isHighHalf n && isLowHalf m then Char.ofNat (0x10000 + (n - 0xd800) * 0x400 + (m - 0xdc00)) :: joinHalves rest
    else (if n.isValidChar then Char.ofNat n else '\ufffe') :: joinHalves (m :: rest)
  | [n] => [if n.isValidChar then Char.ofNat n else '\ufffe']
  | [] => []

/-- The numbers of two bytes that a row of digits in base 64 writes. The bits left over are fewer than a digit has,
    and zero. --/
def shiftedNumbers? (digits : List Nat) : Option (List Nat) :=
  let n := digits.foldl (fun n d => 64 * n + d) 0
  let left := 6 * digits.length % 16
  if left < 6 && n % Nat.pow 2 left == 0 then some (doubleBytes (6 * digits.length / 16) (n / Nat.pow 2 left)) else none

/-- The value of a byte as a digit in base 64. --/
def shiftedDigit? (b : UInt8) : Option Nat :=
  Base64.value? (Char.ofNat b.toNat)

/-- Reads UTF-7; `shifted` holds the bytes behind a plus, the last one first. A hyphen that closes a row of digits
    is no part of the text; behind the plus itself it stands for the plus. --/
def decodeUtf7 (shifted : Option (List UInt8)) : List UInt8 → Decoded
  | [] => match shifted with
    | none => ⟨[], []⟩
    | some row => match shiftedNumbers? (row.reverse.filterMap shiftedDigit?) with
      | some ns => if (ns.getLast?.map isHighHalf).getD false then ⟨[], 0x2b :: row.reverse⟩ else ⟨joinHalves ns, []⟩
      | none => ⟨[], 0x2b :: row.reverse⟩
  | b :: rest => match shifted with
    | none =>
      if b == 0x2b then decodeUtf7 (some []) rest
      else if b < 0x80 then (decodeUtf7 none rest).cons (Char.ofNat b.toNat)
      else ⟨[], b :: rest⟩
    | some row =>
      if (shiftedDigit? b).isSome then decodeUtf7 (some (b :: row)) rest
      else if b ≥ 0x80 || (row.isEmpty && b != 0x2d) then ⟨[], 0x2b :: row.reverse ++ b :: rest⟩
      else match shiftedNumbers? (row.reverse.filterMap shiftedDigit?) with
        | none => ⟨[], 0x2b :: row.reverse ++ b :: rest⟩
        | some ns =>
          let d := decodeUtf7 none rest
          let d := if b == 0x2d then if row.isEmpty then d.cons '+' else d else d.cons (Char.ofNat b.toNat)
          { d with chars := joinHalves ns ++ d.chars }

/-! ### All encodings -/

/-- Reads bytes that stand for one character each. --/
def decodeEach (char? : UInt8 → Option Char) : List UInt8 → Decoded
  | [] => ⟨[], []⟩
  | b :: rest => match char? b with
    | some c => (decodeEach char? rest).cons c
    | none => ⟨[], b :: rest⟩

/-- The character of a byte below a limit. --/
def charBelow? (limit : Nat) (b : UInt8) : Option Char :=
  if b.toNat < limit then some (Char.ofNat b.toNat) else none

/-- Reads a text in an encoding, behind the byte order mark if there is one. --/
def decode : Encoding → List UInt8 → Decoded
  | .utf8, bytes | .utf8Marked, bytes => decodeUtf8 bytes
  | .utf7, bytes => decodeUtf7 none bytes
  | .utf16 order, bytes => decodeUtf16 (order.getD .little) bytes
  | .utf32 order, bytes => decodeUtf32 (order.getD .little) bytes
  | .ascii, bytes => decodeEach (charBelow? 0x80) bytes
  | .latin1, bytes => decodeEach (charBelow? 0x100) bytes
  | .page p, bytes => decodeEach p.char? bytes

/-- Whether bytes that are left are the start of a character. --/
def startsChar : Encoding → List UInt8 → Bool
  | .utf8, bytes | .utf8Marked, bytes => startsUtf8 bytes
  | .utf16 order, bytes => startsUtf16 (order.getD .little) bytes
  | .utf32 _, bytes => bytes.length < 4
  | .utf7, _ | .ascii, _ | .latin1, _ | .page _, _ => false

/-- Writes a text in UTF-8. --/
def encode (cs : List Char) : List UInt8 :=
  cs.flatMap String.utf8EncodeChar

/-! ### Byte order marks -/

/-- What the start of bytes says of their encoding. --/
inductive Start where
  /-- The encoding, the number of bytes in the byte order mark, and the bytes behind it. --/
  | plain (encoding : Encoding) (mark : Nat) (rest : List UInt8)
  /-- The byte order mark that the encoding needs is missing. --/
  | unmarked
  deriving DecidableEq, Repr

/-- Takes the byte order mark off that an encoding provides for. Half a mark that is all there is counts as one. --/
def start : Encoding → List UInt8 → Start
  | .utf8Marked, 0xef :: 0xbb :: 0xbf :: rest => .plain .utf8 3 rest
  | .utf8Marked, [0xef, 0xbb] => .plain .utf8 2 []
  | .utf8Marked, [0xef] => .plain .utf8 1 []
  | .utf8Marked, bytes => .plain .utf8 0 bytes
  | .utf16 none, 0xff :: 0xfe :: rest => .plain (.utf16 (some .little)) 2 rest
  | .utf16 none, 0xfe :: 0xff :: rest => .plain (.utf16 (some .big)) 2 rest
  | .utf32 none, 0xff :: 0xfe :: 0 :: 0 :: rest => .plain (.utf32 (some .little)) 4 rest
  | .utf32 none, 0 :: 0 :: 0xfe :: 0xff :: rest => .plain (.utf32 (some .big)) 4 rest
  | .utf16 none, _ :: _ | .utf32 none, _ :: _ => .unmarked
  | e, bytes => .plain e 0 bytes

end Retag.Text

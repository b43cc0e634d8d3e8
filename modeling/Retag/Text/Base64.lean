/-! Base 64. Bytes are written in lines of 76 digits, padded to whole groups of four; reading skips every
    character that is no digit and stops at a padded group. -/

namespace Retag.Text.Base64

/-- The digit of a number below 64. --/
def digit (n : Nat) : Char :=
  if n < 26 then Char.ofNat (65 + n)
  else if n < 52 then Char.ofNat (71 + n)
  else if n < 62 then Char.ofNat (n - 4)
  else if n = 62 then '+'
  else '/'

/-- The value of a digit. --/
def value? (c : Char) : Option Nat :=
  let n := c.toNat
  if 65 ≤ n && n ≤ 90 then some (n - 65)
  else if 97 ≤ n && n ≤ 122 then some (n - 71)
  else if 48 ≤ n && n ≤ 57 then some (n + 4)
  else if c = '+' then some 62
  else if c = '/' then some 63
  else none

/-- The groups of four for a row of bytes. --/
def encodeGroups : List UInt8 → List Char
  | [] => []
  | [a] => [digit (a.toNat / 4), digit (a.toNat % 4 * 16), '=', '=']
  | [a, b] =>
    [digit (a.toNat / 4), digit (a.toNat % 4 * 16 + b.toNat / 16), digit (b.toNat % 16 * 4), '=']
  | a :: b :: c :: rest =>
    digit (a.toNat / 4) :: digit (a.toNat % 4 * 16 + b.toNat / 16) :: digit (b.toNat % 16 * 4 + c.toNat / 64) ::
      digit (c.toNat % 64) :: encodeGroups rest

/-- The number of bytes on a full line. --/
def lineBytes : Nat := 57

/-- The lines for a row of bytes, each closed by a line feed. --/
def encodeLines (bytes : List UInt8) : List Char :=
  if bytes.isEmpty then [] else
    encodeGroups (bytes.take lineBytes) ++ '\n' :: encodeLines (bytes.drop lineBytes)
termination_by bytes.length
decreasing_by
  rename_i h
  simp only [List.length_drop, lineBytes]
  have : bytes.length ≠ 0 := fun h' => h (by simp [List.length_eq_zero_iff.mp h'])
  omega

/-- Where a group stands: how many of its digits were read, what is left of the last one, and how many pads
    followed it. --/
structure Group where
  position : Nat := 0
  left : Nat := 0
  pads : Nat := 0

/-- Reads on from within a group; none if the text ends within one. --/
def decodeFrom (g : Group) : List Char → Option (List UInt8)
  | [] => if g.position = 0 then some [] else none
  | c :: rest =>
    if c = '=' then
      if 2 ≤ g.position then
        if 4 ≤ g.position + g.pads + 1 then some [] else decodeFrom { g with pads := g.pads + 1 } rest
      else decodeFrom g rest
    else match value? c with
      | none => decodeFrom g rest
      | some v => match g.position with
        | 0 => decodeFrom ⟨1, v, 0⟩ rest
        | 1 => (decodeFrom ⟨2, v % 16, 0⟩ rest).map (UInt8.ofNat (g.left * 4 + v / 16) :: ·)
        | 2 => (decodeFrom ⟨3, v % 4, 0⟩ rest).map (UInt8.ofNat (g.left * 16 + v / 4) :: ·)
        | _ => (decodeFrom ⟨0, 0, 0⟩ rest).map (UInt8.ofNat (g.left * 64 + v) :: ·)

/-- The bytes that a text writes. --/
def decode? (cs : List Char) : Option (List UInt8) :=
  decodeFrom {} cs

end Retag.Text.Base64

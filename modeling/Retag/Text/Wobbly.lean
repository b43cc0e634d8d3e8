/-! Texts that may be wobbly. Some characters are also written as pairs of two numbers, which are no characters
    themselves. An escape can name one half of such a pair on its own; a text with such a half in it is torn. -/

namespace Retag.Text

/-- A place of a text: a character, or a half on its own, named by its place among the halves. --/
inductive Point where
  | char (c : Char)
  | half (n : Fin 0x800)
  deriving DecidableEq, Repr

namespace Point

def isHalf : Point → Bool
  | .char _ => false
  | .half _ => true

def char? : Point → Option Char
  | .char c => some c
  | .half _ => none

/-- The number of a half. --/
def number (n : Fin 0x800) : Nat :=
  0xd800 + n

end Point

/-- A text with a half in it. --/
structure Torn where
  points : List Point
  isTorn : points.any Point.isHalf = true
  deriving DecidableEq, Repr

/-- A text, which may be torn. --/
inductive Wobbly where
  | whole (s : String)
  | torn (t : Torn)
  deriving DecidableEq, Repr

namespace Torn

def chars (t : Torn) : List Char :=
  t.points.filterMap Point.char?

/-- The text with the replacement character in place of every half. --/
def standIn (t : Torn) : String :=
  String.ofList (t.points.map fun x => x.char?.getD '\uFFFD')

end Torn

namespace Wobbly

instance : Coe String Wobbly := ⟨.whole⟩

def ofPoints (points : List Point) : Wobbly :=
  if h : points.any Point.isHalf = true then .torn ⟨points, h⟩
  else .whole (String.ofList (points.filterMap Point.char?))

def points : Wobbly → List Point
  | .whole s => s.toList.map .char
  | .torn t => t.points

@[simp] theorem ofPoints_chars (cs : List Char) : ofPoints (cs.map .char) = .whole (String.ofList cs) := by
  have hnone : (cs.map Point.char).any Point.isHalf = false := by simp [Point.isHalf]
  have hchars : (cs.map Point.char).filterMap Point.char? = cs := by
    rw [List.filterMap_map]
    exact List.filterMap_some
  rw [ofPoints, dif_neg (by simp [hnone]), hchars]

@[simp] theorem ofPoints_points (text : Wobbly) : ofPoints text.points = text := by
  cases text with
  | whole s => rw [points, ofPoints_chars, String.ofList_toList]
  | torn t => exact dif_pos t.isTorn

/-- One text behind another. --/
def append : Wobbly → Wobbly → Wobbly
  | .whole s, .whole t => .whole (s ++ t)
  | s, t => ofPoints (s.points ++ t.points)

instance : Append Wobbly := ⟨append⟩

end Wobbly

end Retag.Text

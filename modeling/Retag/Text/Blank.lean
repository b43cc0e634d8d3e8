/-! Blank characters and blank texts. A character is blank when the Unicode standard calls it white space
    or when it is one of the four ASCII information separators. -/

namespace Retag.Text

/-- Whether a character leaves no mark and separates words. --/
def isBlank (c : Char) : Bool :=
  let n := c.toNat
  (9 ≤ n && n ≤ 13) || (28 ≤ n && n ≤ 32) || n == 0x85 || n == 0xa0 || n == 0x1680 || (0x2000 ≤ n && n ≤ 0x200a) ||
    n == 0x2028 || n == 0x2029 || n == 0x202f || n == 0x205f || n == 0x3000

/-- Whether nothing is left of a text once blanks are taken away. --/
def isBlankText (s : String) : Bool :=
  s.toList.all isBlank

end Retag.Text

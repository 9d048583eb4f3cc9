import IntScript.Segment

/-!
# Blanks and words

`isBlank` holds of the characters with the Unicode property `White_Space`, and `words`
are the maximal runs of other characters in a text.
-/

namespace IntScript.Text

/-- The characters with the Unicode property `White_Space`. -/
def isBlank (c : Char) : Bool :=
  let n := c.toNat
  (9 ≤ n && n ≤ 13) || n == 0x20 || n == 0x85 || n == 0xA0 || n == 0x1680 ||
    (0x2000 ≤ n && n ≤ 0x200A) || n == 0x2028 || n == 0x2029 || n == 0x202F ||
    n == 0x205F || n == 0x3000

/-- Two neighbours in a text belong to the same run when both are blank or neither is. -/
def sameBlankness (a b : Char) : Bool :=
  isBlank a == isBlank b

/-- The maximal runs of characters that are not blank. -/
def words (text : List Char) : List (List Char) :=
  (text.splitBy sameBlankness).filter fun run => !run.any isBlank

end IntScript.Text

/-!
# Blank characters

The characters that are white space in Unicode, and texts without those at their ends.
-/

namespace PayloadAtlas.Text

/-- Whether a character is white space. -/
def isSpace (c : Char) : Bool :=
  let n := c.toNat
  (9 ≤ n && n ≤ 13) || n == 0x20 || n == 0x85 || n == 0xA0 || n == 0x1680 ||
    (0x2000 ≤ n && n ≤ 0x200A) || n == 0x2028 || n == 0x2029 || n == 0x202F || n == 0x205F ||
    n == 0x3000

/-- Characters without the blank ones at their beginning. -/
def trimLeft (cs : List Char) : List Char := cs.dropWhile isSpace

/-- Characters without the blank ones at their end. -/
def trimRight (cs : List Char) : List Char := (trimLeft cs.reverse).reverse

/-- A text without the blanks around it. -/
def trim (s : String) : String := String.ofList (trimRight (trimLeft s.toList))

end PayloadAtlas.Text

/-!
# Blank characters

The characters of the Unicode property White_Space, and a text without those at its ends.
-/

namespace RegexTree.Text

/-- The character is white space by the Unicode property White_Space. -/
def isBlank (c : Char) : Bool :=
  let n := c.toNat
  (0x09 ≤ n && n ≤ 0x0D) || n == 0x20 || n == 0x85 || n == 0xA0 || n == 0x1680 || (0x2000 ≤ n && n ≤ 0x200A) ||
    n == 0x2028 || n == 0x2029 || n == 0x202F || n == 0x205F || n == 0x3000

/-- The characters after the leading blanks. -/
def trimStart (cs : List Char) : List Char := cs.dropWhile isBlank

/-- The characters before the trailing blanks. -/
def trimEnd (cs : List Char) : List Char := (cs.reverse.dropWhile isBlank).reverse

/-- The characters between the leading and the trailing blanks. -/
def trim (cs : List Char) : List Char := trimEnd (trimStart cs)

/-- A text of blanks alone, the empty text among them. -/
def isBlankText (s : String) : Bool := s.toList.all isBlank

end RegexTree.Text

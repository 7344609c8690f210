/-!
# Blank characters

The characters of the property White_Space, and texts without them at their ends.
-/

namespace Metering.Text

/-- Whether a character is white space. -/
def isBlank (c : Char) : Bool :=
  let n := c.toNat
  (9 ≤ n && n ≤ 13) || n = 0x20 || n = 0x85 || n = 0xa0 || n = 0x1680
    || (0x2000 ≤ n && n ≤ 0x200a) || n = 0x2028 || n = 0x2029 || n = 0x202f || n = 0x205f
    || n = 0x3000

/-- Drops what satisfies `p` at both ends. -/
def trimWhile (p : Char → Bool) (text : List Char) : List Char :=
  ((text.dropWhile p).reverse.dropWhile p).reverse

/-- The text without blanks at its ends. -/
def trim (text : List Char) : List Char := trimWhile isBlank text

end Metering.Text

-- White space in the sense of the character database, and the text that is
-- left when it is taken off both ends.

namespace ManagementSchema.Text

/-- The characters with the property `White_Space`. -/
def isBlankChar (c : Char) : Bool :=
  let n := c.toNat
  (0x9 ≤ n && n ≤ 0xd) || n == 0x20 || n == 0x85 || n == 0xa0 || n == 0x1680 ||
    (0x2000 ≤ n && n ≤ 0x200a) || n == 0x2028 || n == 0x2029 || n == 0x202f ||
    n == 0x205f || n == 0x3000

/-- The characters without the white space before the first and after the last other one. -/
def trimChars (cs : List Char) : List Char :=
  ((cs.dropWhile isBlankChar).reverse.dropWhile isBlankChar).reverse

/-- The text without its outer white space. -/
def trim (s : String) : String := String.ofList (trimChars s.toList)

/-- A blank text has nothing but white space. -/
def isBlank (s : String) : Bool := s.toList.all isBlankChar

end ManagementSchema.Text

/-!
White space at the ends of a text. Besides the ASCII blanks the set holds the four information
separators, the next-line and no-break characters and the Unicode space separators.
-/

set_option autoImplicit false
set_option relaxedAutoImplicit false

namespace RuleMarshal.Text

/-- Characters that count as white space. -/
def isBlank (c : Char) : Bool :=
  let n := c.toNat
  (0x09 ≤ n && n ≤ 0x0d) || (0x1c ≤ n && n ≤ 0x20) || n = 0x85 || n = 0xa0 || n = 0x1680 ||
  (0x2000 ≤ n && n ≤ 0x200a) || n = 0x2028 || n = 0x2029 || n = 0x202f || n = 0x205f || n = 0x3000

/-- The text without the white space at its two ends. -/
def strip (text : String) : String :=
  String.ofList (((text.toList.dropWhile isBlank).reverse.dropWhile isBlank).reverse)

/-- Whether nothing but white space is in the text. -/
def isAllBlank (text : String) : Bool := text.toList.all isBlank

end RuleMarshal.Text

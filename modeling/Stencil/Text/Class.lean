import Stencil.Text.Alphabetic
import Stencil.Text.GraphemeExtend
import Stencil.Text.Numeric
import Stencil.Text.Unprintable

/-!
# Character classes

Blank characters, letters, digits and printable characters. A character below 128 is decided by
arithmetic on its code point, all others by the range tables.
-/

namespace Stencil.Text

/-- White space: the characters with the property `White_Space`. -/
def isBlank (c : Char) : Bool :=
  let n := c.toNat
  if n < 128 then n == 32 || (9 ≤ n && n ≤ 13)
  else n == 0x85 || n == 0xa0 || n == 0x1680 || (0x2000 ≤ n && n ≤ 0x200a) || n == 0x2028
    || n == 0x2029 || n == 0x202f || n == 0x205f || n == 0x3000

/-- A decimal digit of ASCII, the only ones that integers are written with. -/
def isDigit (c : Char) : Bool := '0' ≤ c && c ≤ '9'

/-- A letter: the characters with the property `Alphabetic`. -/
def isLetter (c : Char) : Bool :=
  let n := c.toNat
  if n < 128 then (65 ≤ n && n ≤ 90) || (97 ≤ n && n ≤ 122) else alphabeticRanges.contains n

/-- A numeric character: decimal digits of every script, letter numbers and other numbers. -/
def isNumeric (c : Char) : Bool :=
  let n := c.toNat
  if n < 128 then 48 ≤ n && n ≤ 57 else numericRanges.contains n

/-- What a name may start with. -/
def isNameStart (c : Char) : Bool := isLetter c || c == '_'

/-- What a name may go on with. -/
def isNamePart (c : Char) : Bool := isLetter c || isNumeric c || c == '_'

/-- Whether a quoted text may show the character as it is: it is printable and does not attach to
the character before it. -/
def isShown (c : Char) : Bool :=
  let n := c.toNat
  if n < 128 then 32 ≤ n && n < 127
  else !unprintableRanges.contains n && !graphemeExtendRanges.contains n

end Stencil.Text

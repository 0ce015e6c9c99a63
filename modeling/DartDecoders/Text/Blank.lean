/-
White space.

Blank are the characters that Unicode counts as white space by category or by bidirectional
class: the ASCII controls from tab to carriage return, the four separator controls from file to
unit separator, the space, the next-line control and the space separators beyond ASCII. The
zero-width space and the byte order mark are not among them.
-/
import DartDecoders.Text.CodePoint
import DartDecoders.Text.Range

set_option autoImplicit false

namespace DartDecoders

/-- The code points of white space. -/
def blankRanges : CodeRanges :=
  [(0x9, 0xd), (0x1c, 0x20), (0x85, 0x85), (0xa0, 0xa0), (0x1680, 0x1680), (0x2000, 0x200a),
   (0x2028, 0x2029), (0x202f, 0x202f), (0x205f, 0x205f), (0x3000, 0x3000)]

/-- White space of any kind. -/
def isBlank (c : CodePoint) : Bool :=
  blankRanges.contains c.toNat

end DartDecoders

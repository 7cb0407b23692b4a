/-
  GoBindings/Unicode/WhiteSpace.lean
  ==================================
  **The characters with the Unicode property White_Space.**

  Besides the ASCII blanks these are the next-line control, the no-break space
  and the spaces of typography. The zero-width space and the byte order mark
  are not among them.
-/
import GoBindings.Unicode.Ranges

namespace GoBindings.Unicode

/-- White_Space code points, ascending. -/
def whiteSpaceRanges : Ranges := [
  (0x9, 0xD), (0x20, 0x20), (0x85, 0x85), (0xA0, 0xA0), (0x1680, 0x1680),
  (0x2000, 0x200A), (0x2028, 0x2029), (0x202F, 0x202F), (0x205F, 0x205F), (0x3000, 0x3000)]

/-- Whether a character is trimmed from the ends of a text. -/
def isWhiteSpace (c : Char) : Bool := whiteSpaceRanges.contains c

end GoBindings.Unicode

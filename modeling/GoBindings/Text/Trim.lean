/-
  GoBindings/Text/Trim.lean
  =========================
  **Trimming white space.**

  Blanks around an option, a key or a value do not count. Which characters
  are blank is the Unicode property White_Space.
-/
import GoBindings.Text.Cut
import GoBindings.Unicode.WhiteSpace

namespace GoBindings.Text

/-- The text without white space at its ends. -/
def trim (s : String) : String := dropBothWhile Unicode.isWhiteSpace s

end GoBindings.Text

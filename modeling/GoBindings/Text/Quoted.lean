/-
  GoBindings/Text/Quoted.lean
  ===========================
  **Quoted texts in messages.**

  A message shows a text of unknown content between double quotes, so that
  its ends, its line breaks and its invisible characters can be seen. Five
  characters have short escapes, a quote and a backslash are preceded by a
  backslash, and every other character that would not show up is written by
  its code point.
-/
import GoBindings.Unicode.GraphemeExtend
import GoBindings.Unicode.Unprintable

namespace GoBindings.Text.Quoted

/-- A code point in lower-case hexadecimal between braces. -/
def codePoint (c : Char) : List Char :=
  '\\' :: 'u' :: '\x7b' :: Nat.toDigits 16 c.toNat ++ ['\x7d']

/-- Letters that show nothing: they fill the place of a Korean letter. -/
def fillers : List Char := ['\u115f', '\u1160', '\u3164', '\uffa0']

/-- Letters that extend the letter before them, but take room of their own. -/
def spacingMarks : List Char := ['\uff9e', '\uff9f']

/-- Whether a character would not show up as one of its own. -/
def isHidden (c : Char) : Bool :=
  Unicode.isUnprintable c || fillers.contains c
    || (Unicode.extendsGrapheme c && !spacingMarks.contains c)

/-- How one character is shown. -/
def escape (c : Char) : List Char :=
  if c = '\x00' then ['\\', '0']
  else if c = '\t' then ['\\', 't']
  else if c = '\r' then ['\\', 'r']
  else if c = '\n' then ['\\', 'n']
  else if c = '"' || c = '\\' then ['\\', c]
  else if isHidden c then codePoint c
  else [c]

end Quoted

/-- The text between quotes, with every character that would not show up escaped. -/
def quoted (s : String) : String :=
  String.ofList ('"' :: s.toList.flatMap Quoted.escape ++ ['"'])

end GoBindings.Text

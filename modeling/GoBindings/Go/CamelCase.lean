/-
  GoBindings/Go/CamelCase.lean
  ============================
  **Exported Go names for declared names.**

  The name of a message, service or method becomes an exported Go name the way
  the generator of the message types does it, so that both agree: `foo_bar` is
  `FooBar`, the nested `Outer.Inner` is `Outer_Inner`, and a leading underscore
  is written `X` because an exported name starts with a capital letter.

  The rule reads the bytes of the UTF-8 form, one word at a time. A byte that is
  not ASCII stands for the character with that code.
-/
import GoBindings.Text.Utf8

namespace GoBindings.Go.CamelCase

def dot : UInt8 := 0x2E
def underscore : UInt8 := 0x5F

def isLower (b : UInt8) : Bool := 0x61 ≤ b && b ≤ 0x7A
def isDigit (b : UInt8) : Bool := 0x30 ≤ b && b ≤ 0x39

/-- The character with the code of a byte. -/
def glyph (b : UInt8) : Char := Char.ofUInt8 b

/-- The same for the first byte of a word: a small letter becomes a capital. -/
def capital (b : UInt8) : Char := if isLower b then Char.ofUInt8 (b - 0x20) else Char.ofUInt8 b

/-- Whether a word that starts here would start with a small letter. -/
def startsLower (bytes : List UInt8) : Bool := bytes.head?.any isLower

/-- The name for the bytes that follow `before`, the byte just read, if any.

    A dot or underscore vanishes where the next word brings its own capital,
    and is an underscore elsewhere; an underscore that starts the name or one
    of its parts is `X`. A digit stays. Any other byte opens a word, and the
    small letters after it belong to that word. -/
def words (before : Option UInt8) : List UInt8 → List Char
  | [] => []
  | b :: rest =>
    if b = dot then
      if startsLower rest then words (some b) rest else '_' :: words (some b) rest
    else if b = underscore && (before.isNone || before == some dot) then
      'X' :: words (some b) rest
    else if b = underscore && startsLower rest then words (some b) rest
    else if isDigit b then glyph b :: words (some b) rest
    else
      capital b :: ((rest.takeWhile isLower).map glyph
        ++ words ((rest.takeWhile isLower).getLast?.or (some b)) (rest.dropWhile isLower))
termination_by bytes => bytes.length
decreasing_by
  all_goals simp_wf
  have := (List.dropWhile_suffix isLower (l := rest)).length_le
  omega

end CamelCase

/-- The exported Go name for a declared name. -/
def camelCase (s : String) : String := String.ofList (CamelCase.words none (Text.utf8 s))

end GoBindings.Go

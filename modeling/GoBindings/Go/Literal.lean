/-
  GoBindings/Go/Literal.lean
  ==========================
  **Go string literals.**

  Runtime names and import paths are written as interpreted string literals.
  A quote and a backslash are escaped, a line break, carriage return or tab has
  its short escape, and any other control character is written by the two
  hexadecimal digits of its code. Everything else stands for itself.

  `denote?` reads a literal by Go's rules: an escape of two hexadecimal or three
  octal digits is one byte, one of four or eight hexadecimal digits is the UTF-8
  form of a code point, and a character that stands for itself is its UTF-8 form.
-/
import GoBindings.Text.Digit

namespace GoBindings.Go.Literal

open Text (digit?)

/-! ### Writing -/

/-- The control characters, which are the codes below 32 and from 127 to 159. -/
def isControl (c : Char) : Bool := c.toNat < 0x20 || (0x7F ≤ c.toNat && c.toNat ≤ 0x9F)

/-- A digit below sixteen. -/
def hexDigit (n : Nat) : Char := Nat.digitChar n

/-- How one character is written between the quotes. -/
def escape (c : Char) : List Char :=
  if c = '"' then ['\\', '"']
  else if c = '\\' then ['\\', '\\']
  else if c = '\n' then ['\\', 'n']
  else if c = '\r' then ['\\', 'r']
  else if c = '\t' then ['\\', 't']
  else if isControl c then ['\\', 'x', hexDigit (c.toNat / 16), hexDigit (c.toNat % 16)]
  else [c]

/-! ### Reading -/

/-- The byte for an escape of one letter. -/
def shortEscape? (c : Char) : Option UInt8 :=
  [('a', 0x07), ('b', 0x08), ('t', 0x09), ('n', 0x0A), ('v', 0x0B), ('f', 0x0C), ('r', 0x0D),
    ('"', 0x22), ('\\', 0x5C)].lookup c

/-- A number in an escape: how many digits are to come, and what those before them give. -/
structure Numeral where
  /-- Whether the number is a byte, and not the code point of a character. -/
  isByte : Bool
  base : Nat
  missing : Nat
  value : Nat
deriving DecidableEq, Repr

namespace Numeral

/-- The number that a character behind the backslash announces. An octal digit is the first
    of three. -/
def announced? (c : Char) : Option Numeral :=
  if c = 'x' then some ⟨true, 16, 2, 0⟩
  else if c = 'u' then some ⟨false, 16, 4, 0⟩
  else if c = 'U' then some ⟨false, 16, 8, 0⟩
  else (digit? 8 c).map fun d => ⟨true, 8, 2, d⟩

def push (n : Numeral) (d : Nat) : Numeral :=
  { n with missing := n.missing - 1, value := n.base * n.value + d }

/-- The bytes for a number with all its digits, unless it is too great or no character's. -/
def bytes? (n : Numeral) : Option (List UInt8) :=
  if n.isByte then
    if n.value < 256 then some [UInt8.ofNat n.value] else none
  else if n.value.isValidChar then some (String.utf8EncodeChar (Char.ofNat n.value))
  else none

end Numeral

/-- Where in a literal its reader is. -/
inductive Place where
  | text
  /-- Behind a backslash. -/
  | escape
  | number (n : Numeral)
deriving DecidableEq, Repr

/-- The bytes up to the closing quote, and what follows it. A raw line break
    may not stand in a literal. -/
def body? : Place → List Char → Option (List UInt8 × List Char)
  | _, [] => none
  | .text, c :: rest =>
    if c = '"' then some ([], rest)
    else if c = '\n' then none
    else if c = '\\' then body? .escape rest
    else do
      let (bytes, after) ← body? .text rest
      some (String.utf8EncodeChar c ++ bytes, after)
  | .escape, c :: rest =>
    match shortEscape? c with
    | some b => do
      let (bytes, after) ← body? .text rest
      some (b :: bytes, after)
    | none => do
      let n ← Numeral.announced? c
      body? (.number n) rest
  | .number n, c :: rest => do
    let d ← digit? n.base c
    if (n.push d).missing = 0 then
      let number ← (n.push d).bytes?
      let (bytes, after) ← body? .text rest
      some (number ++ bytes, after)
    else body? (.number (n.push d)) rest

/-- The bytes that a literal denotes, if the text is one literal and no more. -/
def denote? (literal : String) : Option (List UInt8) :=
  match literal.toList with
  | '"' :: rest =>
    match body? .text rest with
    | some (bytes, []) => some bytes
    | _ => none
  | _ => none

end Literal

/-- The literal for a text. -/
def literal (s : String) : String :=
  String.ofList ('"' :: s.toList.flatMap Literal.escape ++ ['"'])

end GoBindings.Go

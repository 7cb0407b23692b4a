/-
  GoBindings/Pool/DefaultText.lean
  ================================
  **Values that are declared as texts.**

  The default value of a field is declared as a text. A text stands for a value of
  a type or it does not: numbers have to be within the range of their type, and
  bytes are written with escapes.
-/
import GoBindings.Descriptor.Scalar
import GoBindings.Text.Decimal
import GoBindings.Text.Digit

namespace GoBindings.DefaultText

open Descriptor (Scalar)
open Text (digit?)

/-! ### Integers -/

/-- The number that a text stands for; `signed` says whether it may be negative. -/
def integer? (signed : Bool) (text : String) : Option Int :=
  match text.toList with
  | '+' :: digits => (Text.decimal? digits).map Int.ofNat
  | '-' :: digits => if signed then (Text.decimal? digits).map fun n => -(n : Int) else none
  | digits => (Text.decimal? digits).map Int.ofNat

/-! ### Floating-point numbers -/

/-- The number after an exponent mark; nothing is zero. -/
def exponent? : List Char → Option Int
  | [] => some 0
  | c :: rest =>
    if c == 'e' || c == 'E' then integer? true (String.ofList rest) else none

/-- The pattern for digits with at most one point among them, then an exponent. -/
def magnitude? (f : BinaryFormat) (cs : List Char) : Option Nat :=
  let whole := cs.takeWhile Char.isDigit
  let after := cs.dropWhile Char.isDigit
  let fraction := match after with
    | '.' :: rest => rest.takeWhile Char.isDigit
    | _ => []
  let rest := match after with
    | '.' :: rest => rest.dropWhile Char.isDigit
    | _ => after
  if whole.isEmpty && fraction.isEmpty then none
  else
    (exponent? rest).map fun e =>
      f.ofDecimal (Text.decimalValue (whole ++ fraction)) (e - fraction.length)

/-- The pattern for a number without sign, infinite or not, or the word for what is
    no number. -/
def unsigned? (f : BinaryFormat) (cs : List Char) : Option Nat :=
  match String.ofList (cs.map Char.toLower) with
  | "inf" => some f.infinity
  | "infinity" => some f.infinity
  | "nan" => some f.notANumber
  | _ => magnitude? f cs

/-- The pattern that a text stands for. -/
def float? (f : BinaryFormat) (text : String) : Option Nat :=
  match text.toList with
  | '+' :: cs => unsigned? f cs
  | '-' :: cs => (unsigned? f cs).map (f.signBit + ·)
  | cs => unsigned? f cs

/-! ### Bytes -/

/-- The byte of two hexadecimal digits; the first may be a plus sign instead. -/
def hexadecimal? (a b : Char) : Option UInt8 := do
  let high ← if a == '+' then some 0 else digit? 16 a
  let low ← digit? 16 b
  some (UInt8.ofNat (16 * high + low))

/-- The byte that a letter or mark after a backslash stands for. -/
def escape? : Char → Option UInt8
  | 'a' => some 7
  | 'b' => some 8
  | 't' => some 9
  | 'n' => some 10
  | 'v' => some 11
  | 'f' => some 12
  | 'r' => some 13
  | '"' => some 34
  | '\'' => some 39
  | '?' => some 63
  | '\\' => some 92
  | _ => none

/-- Up to three octal digits and what follows them. -/
def octal (cs : List Char) : List Char × List Char :=
  let digits := (cs.take 3).takeWhile fun c => (digit? 8 c).isSome
  (digits, cs.drop digits.length)

/-- The byte of octal digits, without what is too much for a byte. -/
def octalValue (digits : List Char) : UInt8 :=
  UInt8.ofNat (digits.foldl (fun n c => 8 * n + (digit? 8 c).getD 0) 0)

/-- The bytes of a text, with escapes undone. Each step takes a character, so the
    number of characters is fuel enough. -/
def unescape : Nat → List Char → Option (List UInt8)
  | _, [] => some []
  | 0, _ :: _ => none
  | _ + 1, ['\\'] => none
  | fuel + 1, '\\' :: c :: rest =>
    if c == 'x' || c == 'X' then
      match rest with
      | a :: b :: after => do
        let byte ← hexadecimal? a b
        (unescape fuel after).map (byte :: ·)
      | _ => none
    else
      match octal (c :: rest) with
      | ([], _) => do
        let byte ← escape? c
        (unescape fuel rest).map (byte :: ·)
      | (digits, after) => (unescape fuel after).map (octalValue digits :: ·)
  | fuel + 1, c :: rest => (unescape fuel rest).map (String.utf8EncodeChar c ++ ·)

/-! ### All types -/

/-- The value of a type that a text stands for. -/
def payload? (text : String) (type : Scalar) : Option Wire.Payload :=
  match type with
  | .double => (float? .double text).map .fixed64
  | .float => (float? .single text).map .fixed32
  | .bool =>
    if text = "true" then some (Scalar.ofTruth true)
    else if text = "false" then some (Scalar.ofTruth false)
    else none
  | .string => some (.bytes (Text.utf8 text))
  | .bytes => (unescape text.length text.toList).map .bytes
  | _ => do
    let (low, _) ← type.bounds?
    let n ← integer? (low < 0) text
    type.ofInt? n

end GoBindings.DefaultText

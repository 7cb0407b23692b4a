/-
  GoBindings/Number/Binary.lean
  =============================
  **Binary floating-point numbers.**

  A format has a number of bits for the significand and some for the exponent. A
  number is its pattern of bits, and patterns of positive numbers are in the order
  of the numbers. Counted in the least positive number, the numbers of a format are
  `significand * 2 ^ shift`, so that rounding is a division of natural numbers.
-/
namespace GoBindings

structure BinaryFormat where
  /-- Bits of the significand, with the first one, which is not written. -/
  precision : Nat
  exponentBits : Nat
deriving DecidableEq, Repr

namespace BinaryFormat

def double : BinaryFormat := ⟨53, 11⟩

def single : BinaryFormat := ⟨24, 8⟩

/-! ### Patterns -/

/-- The pattern of the sign alone, which is above all patterns without it. -/
def signBit (f : BinaryFormat) : Nat := Nat.pow 2 (f.exponentBits + f.precision - 1)

/-- The pattern of infinity; those above it are no numbers. -/
def infinity (f : BinaryFormat) : Nat :=
  (Nat.pow 2 f.exponentBits - 1) * Nat.pow 2 (f.precision - 1)

/-- A pattern that is no number. -/
def notANumber (f : BinaryFormat) : Nat := f.infinity + Nat.pow 2 (f.precision - 2)

/-- One divided by the least positive number, as a power of two. -/
def scale (f : BinaryFormat) : Nat := Nat.pow 2 (f.exponentBits - 1) + f.precision - 3

/-- A pattern without its sign. -/
def magnitude (f : BinaryFormat) (bits : Nat) : Nat := bits % f.signBit

/-- Whether two patterns are the same number: both zeros are, and what is no number
    is the same as nothing. -/
def same (f : BinaryFormat) (a b : Nat) : Bool :=
  decide (f.magnitude a ≤ f.infinity) && (a == b || (f.magnitude a == 0 && f.magnitude b == 0))

/-! ### Rounding -/

/-- A quotient rounded to the nearest integer, halves to the even one. -/
def roundDiv (a b : Nat) : Nat :=
  let q := a / b
  let r := a % b
  if b < 2 * r || (b == 2 * r && q % 2 == 1) then q + 1 else q

/-- The pattern of the number that is nearest to a quotient. -/
def nearest (f : BinaryFormat) (numerator denominator : Nat) : Nat :=
  let scaled := numerator * Nat.pow 2 f.scale
  let shift := Nat.log2 (scaled / denominator) + 1 - f.precision
  min f.infinity
    (shift * Nat.pow 2 (f.precision - 1) + roundDiv scaled (denominator * Nat.pow 2 shift))

/-- Digits with at least this many places before or behind the point are rounded to
    infinity or to zero in every format. -/
def decimalLimit : Nat := 400

/-- The pattern of the number that is nearest to `digits * 10 ^ exponent`. -/
def ofDecimal (f : BinaryFormat) (digits : Nat) (exponent : Int) : Nat :=
  if digits = 0 then 0
  else if exponent > decimalLimit then f.infinity
  else if exponent < -((decimalLimit + Nat.log2 digits : Nat) : Int) then 0
  else if 0 ≤ exponent then f.nearest (digits * Nat.pow 10 exponent.toNat) 1
  else f.nearest digits (Nat.pow 10 (-exponent).toNat)

/-- The pattern of the number that is nearest to an integer. -/
def ofInt (f : BinaryFormat) (n : Int) : Nat :=
  if n < 0 then f.signBit + f.nearest n.natAbs 1 else f.nearest n.natAbs 1

/-- A pattern of one format as the nearest one of another. -/
def convert (source target : BinaryFormat) (bits : Nat) : Nat :=
  let m := source.magnitude bits
  let sign := if bits < source.signBit then 0 else target.signBit
  if source.infinity < m then target.notANumber
  else if m = source.infinity then sign + target.infinity
  else
    let unit := Nat.pow 2 (source.precision - 1)
    let shift := m / unit - 1
    sign + target.nearest ((m - shift * unit) * Nat.pow 2 shift) (Nat.pow 2 source.scale)

end BinaryFormat

end GoBindings

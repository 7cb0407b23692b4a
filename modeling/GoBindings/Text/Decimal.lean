/-
  GoBindings/Text/Decimal.lean
  ============================
  **Numbers in decimal digits.**

  A number is one digit or more and nothing else: no blanks, no marks between
  digits. Zeros in front do not count.
-/
namespace GoBindings.Text

/-- The number that digits stand for. -/
def decimalValue (digits : List Char) : Nat :=
  digits.foldl (fun n c => 10 * n + (c.toNat - '0'.toNat)) 0

/-- The number that characters stand for, if they are digits. -/
def decimal? (cs : List Char) : Option Nat :=
  if !cs.isEmpty && cs.all Char.isDigit then some (decimalValue cs) else none

end GoBindings.Text

/-
  GoBindings/Wire/Signed.lean
  ===========================
  **Signed integers as natural numbers.**

  The wire has natural numbers only. A signed integer is taken modulo a power of
  two, or so that integers of a small size become small numbers, whatever their
  sign.
-/
namespace GoBindings.Wire

/-- The low 32 bits of a number, read as a signed integer. -/
def toInt32 (n : Nat) : Int := Int.bmod n 0x100000000

/-- The low 64 bits of a number, read as a signed integer. -/
def toInt64 (n : Nat) : Int := Int.bmod n 0x10000000000000000

/-- A signed integer in 32 bits. -/
def bits32 (n : Int) : Nat := (n % 0x100000000).toNat

/-- A signed integer in 64 bits. -/
def bits64 (n : Int) : Nat := (n % 0x10000000000000000).toNat

/-- Zero, then the integers in turn: minus one, one, minus two, two. -/
def zigzag (n : Int) : Nat := if n < 0 then (-2 * n - 1).toNat else (2 * n).toNat

end GoBindings.Wire

/-
  GoBindings/Wire/Varint.lean
  ===========================
  **Variable-length integers.**

  Seven bits a byte, the low ones first; every byte but the last has its top bit
  set. A reader takes 64 bits at most, which is ten bytes whose tenth holds one
  bit. Numbers are natural numbers, so that arithmetic facts about them need no
  word size.
-/
namespace GoBindings.Wire

/-- Reads a number from at most `remaining` bytes, and gives what follows it. -/
def readVarintWithin : Nat → List UInt8 → Option (Nat × List UInt8)
  | 0, _ => none
  | _ + 1, [] => none
  | remaining + 1, b :: rest =>
    if b < 0x80 then
      if remaining = 0 && b > 1 then none else some (b.toNat, rest)
    else do
      let (high, after) ← readVarintWithin remaining rest
      some (b.toNat - 0x80 + 0x80 * high, after)

/-- Reads a number of at most 64 bits, and gives what follows it. -/
def readVarint? (bytes : List UInt8) : Option (Nat × List UInt8) := readVarintWithin 10 bytes

/-- Writes a number with the fewest bytes. -/
def writeVarint (n : Nat) : List UInt8 :=
  if n < 0x80 then [UInt8.ofNat n]
  else UInt8.ofNat (n % 0x80 + 0x80) :: writeVarint (n / 0x80)

end GoBindings.Wire

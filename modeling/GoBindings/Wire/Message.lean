/-
  GoBindings/Wire/Message.lean
  ============================
  **Messages as the wire delimits them.**

  A message is a sequence of fields, each with a number and a payload. Reading
  needs no schema: the wire says where a payload ends, and a group holds fields
  up to the end tag with its number. What a payload means is decided later, so a
  message keeps every field in order.

  Two messages one after the other are again a message, which is how two
  occurrences of a field that holds one merge.
-/
import GoBindings.Text.Utf8
import GoBindings.Wire.Varint

namespace GoBindings.Wire

/-- What a field carries. -/
inductive Payload where
  | varint (n : Nat)
  | fixed64 (bits : Nat)
  | bytes (content : List UInt8)
  | group (fields : List (Nat × Payload))
  | fixed32 (bits : Nat)
deriving Repr

/-- A field's number and what it carries. -/
abbrev Field := Nat × Payload

/-- Fields in the order of the wire. -/
abbrev Message := List Field

/-! ### Reading -/

/-- How a tag says that its payload is delimited. -/
inductive Tag where
  | varint
  | fixed64
  | bytes
  | groupStart
  | groupEnd
  | fixed32
deriving DecidableEq, Repr

def Tag.ofCode? : Nat → Option Tag
  | 0 => some .varint
  | 1 => some .fixed64
  | 2 => some .bytes
  | 3 => some .groupStart
  | 4 => some .groupEnd
  | 5 => some .fixed32
  | _ => none

/-- Reads a field number and a tag. A key has 32 bits and no field has number 0. -/
def readKey? (bytes : List UInt8) : Option ((Nat × Tag) × List UInt8) := do
  let (key, rest) ← readVarint? bytes
  if key < 0x100000000 && 0 < key / 8 then
    let tag ← Tag.ofCode? (key % 8)
    some ((key / 8, tag), rest)
  else none

/-- The next `n` bytes and what follows them, if there are as many. -/
def take? (n : Nat) (bytes : List UInt8) : Option (List UInt8 × List UInt8) :=
  if (bytes.take n).length = n then some (bytes.take n, bytes.drop n) else none

/-- The number whose bytes are given, the lowest first. -/
def littleEndian (bytes : List UInt8) : Nat := bytes.foldr (fun b n => b.toNat + 256 * n) 0

/-- Reads bytes with their number in front. -/
def readDelimited? (bytes : List UInt8) : Option (List UInt8 × List UInt8) := do
  let (n, rest) ← readVarint? bytes
  take? n rest

/-- Reads a payload that is not a group. -/
def readPayload? (tag : Tag) (bytes : List UInt8) : Option (Payload × List UInt8) :=
  match tag with
  | .varint => (readVarint? bytes).map fun (n, rest) => (.varint n, rest)
  | .fixed64 => (take? 8 bytes).map fun (b, rest) => (.fixed64 (littleEndian b), rest)
  | .fixed32 => (take? 4 bytes).map fun (b, rest) => (.fixed32 (littleEndian b), rest)
  | .bytes => (readDelimited? bytes).map fun (content, rest) => (.bytes content, rest)
  | .groupStart => none
  | .groupEnd => none

/-- Reads fields up to the end of the input or, inside a group, up to the end tag
    with the group's number. A field takes at least one byte, so the number of
    bytes and one more is fuel enough. -/
def readFields : Nat → Option Nat → List UInt8 → Option (Message × List UInt8)
  | 0, _, _ => none
  | fuel + 1, inGroup, bytes =>
    if bytes.isEmpty && inGroup.isNone then some ([], [])
    else do
      let ((number, tag), rest) ← readKey? bytes
      match tag with
      | .groupEnd => if inGroup = some number then some ([], rest) else none
      | .groupStart =>
        let (inner, afterGroup) ← readFields fuel (some number) rest
        let (more, after) ← readFields fuel inGroup afterGroup
        some ((number, .group inner) :: more, after)
      | other =>
        let (payload, afterPayload) ← readPayload? other rest
        let (more, after) ← readFields fuel inGroup afterPayload
        some ((number, payload) :: more, after)

/-- Reads what a field with a number and a tag carries, a group too. -/
def readContent? (number : Nat) (tag : Tag) (bytes : List UInt8) : Option (Payload × List UInt8) :=
  match tag with
  | .groupStart =>
    (readFields (bytes.length + 1) (some number) bytes).map fun (m, rest) => (.group m, rest)
  | other => readPayload? other bytes

/-- The message that the bytes hold, if they hold one. -/
def Message.read? (bytes : List UInt8) : Option Message :=
  (readFields (bytes.length + 1) none bytes).map (·.1)

/-! ### Writing -/

/-- The key of a field. -/
def writeKey (number code : Nat) : List UInt8 := writeVarint (8 * number + code)

/-- A field that holds a number. -/
def writeNumber (number n : Nat) : List UInt8 := writeKey number 0 ++ writeVarint n

/-- A field that holds bytes. -/
def writeBytes (number : Nat) (content : List UInt8) : List UInt8 :=
  writeKey number 2 ++ writeVarint content.length ++ content

/-- A field that holds a text. -/
def writeText (number : Nat) (s : String) : List UInt8 := writeBytes number (Text.utf8 s)

/-- The lowest `count` bytes of a number, the lowest first. -/
def lowBytes : Nat → Nat → List UInt8
  | 0, _ => []
  | count + 1, n => UInt8.ofNat n :: lowBytes count (n / 256)

mutual

/-- A field with a payload. -/
def Payload.write (number : Nat) : Payload → List UInt8
  | .varint n => writeNumber number n
  | .fixed64 bits => writeKey number 1 ++ lowBytes 8 bits
  | .bytes content => writeBytes number content
  | .group fields => writeKey number 3 ++ writeFields fields ++ writeKey number 4
  | .fixed32 bits => writeKey number 5 ++ lowBytes 4 bits

/-- Fields one after the other. -/
def writeFields : List (Nat × Payload) → List UInt8
  | [] => []
  | (number, payload) :: rest => payload.write number ++ writeFields rest

end

/-- What a payload that is not a group looks like without a key. -/
def Payload.bare : Payload → List UInt8
  | .varint n => writeVarint n
  | .fixed64 bits => lowBytes 8 bits
  | .bytes content => writeVarint content.length ++ content
  | .group _ => []
  | .fixed32 bits => lowBytes 4 bits

end GoBindings.Wire

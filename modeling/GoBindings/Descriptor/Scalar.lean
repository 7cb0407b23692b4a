/-
  GoBindings/Descriptor/Scalar.lean
  =================================
  **The types of values that need no declaration.**

  A value of such a type is kept as the payload that carries it, in its normal
  form: an integer has no bits that its type has no room for, and a truth is zero
  or one. So equal values have equal payloads, but for floating-point numbers.
-/
import GoBindings.Number.Binary
import GoBindings.Wire.Message
import GoBindings.Wire.Signed

namespace GoBindings.Descriptor

inductive Scalar where
  | double
  | float
  | int64
  | uint64
  | int32
  | fixed64
  | fixed32
  | bool
  | string
  | bytes
  | uint32
  | sfixed32
  | sfixed64
  | sint32
  | sint64
deriving DecidableEq, Repr

namespace Scalar

/-- How values of a type are tagged. -/
def tag : Scalar → Wire.Tag
  | .double | .fixed64 | .sfixed64 => .fixed64
  | .float | .fixed32 | .sfixed32 => .fixed32
  | .string | .bytes => .bytes
  | _ => .varint

/-- The payload of zero or nothing. -/
def zero (type : Scalar) : Wire.Payload :=
  match type.tag with
  | .fixed64 => .fixed64 0
  | .fixed32 => .fixed32 0
  | .bytes => .bytes []
  | _ => .varint 0

/-! ### Integers -/

/-- The least and the greatest number of a type of integers. -/
def bounds? : Scalar → Option (Int × Int)
  | .int32 | .sint32 | .sfixed32 => some (-0x80000000, 0x7fffffff)
  | .int64 | .sint64 | .sfixed64 => some (-0x8000000000000000, 0x7fffffffffffffff)
  | .uint32 | .fixed32 => some (0, 0xffffffff)
  | .uint64 | .fixed64 => some (0, 0xffffffffffffffff)
  | _ => none

/-- The payload of an integer, if the type is one of integers and has it. -/
def ofInt? (type : Scalar) (n : Int) : Option Wire.Payload :=
  if type.bounds?.any fun b => b.1 ≤ n && n ≤ b.2 then
    some
      (match type with
      | .sint32 | .sint64 => .varint (Wire.zigzag n)
      | .fixed32 | .sfixed32 => .fixed32 (Wire.bits32 n)
      | .fixed64 | .sfixed64 => .fixed64 (Wire.bits64 n)
      | _ => .varint (Wire.bits64 n))
  else none

/-- The payload of a truth. -/
def ofTruth (b : Bool) : Wire.Payload := .varint (if b then 1 else 0)

/-! ### Payloads -/

/-- The normal form of a payload, if it carries a value of the type. -/
def normal? : Scalar → Wire.Payload → Option Wire.Payload
  | .int32, .varint n => some (.varint (Wire.bits64 (Wire.toInt32 n)))
  | .int64, .varint n => some (.varint n)
  | .uint64, .varint n => some (.varint n)
  | .sint64, .varint n => some (.varint n)
  | .uint32, .varint n => some (.varint (n % 0x100000000))
  | .sint32, .varint n => some (.varint (n % 0x100000000))
  | .bool, .varint n => some (ofTruth (n != 0))
  | .double, .fixed64 bits => some (.fixed64 bits)
  | .fixed64, .fixed64 bits => some (.fixed64 bits)
  | .sfixed64, .fixed64 bits => some (.fixed64 bits)
  | .float, .fixed32 bits => some (.fixed32 bits)
  | .fixed32, .fixed32 bits => some (.fixed32 bits)
  | .sfixed32, .fixed32 bits => some (.fixed32 bits)
  | .string, .bytes content =>
    if (Text.ofUtf8? content).isSome then some (.bytes content) else none
  | .bytes, .bytes content => some (.bytes content)
  | _, _ => none

/-- Whether two payloads in normal form are the same value. -/
def same : Scalar → Wire.Payload → Wire.Payload → Bool
  | .double, .fixed64 a, .fixed64 b => BinaryFormat.double.same a b
  | .float, .fixed32 a, .fixed32 b => BinaryFormat.single.same a b
  | _, .varint a, .varint b => a == b
  | _, .fixed64 a, .fixed64 b => a == b
  | _, .fixed32 a, .fixed32 b => a == b
  | _, .bytes a, .bytes b => a == b
  | _, _, _ => false

end Scalar

end GoBindings.Descriptor

/-
  GoBindings/Descriptor/Layout.lean
  =================================
  **How requests and declarations are laid out on the wire.**

  The field numbers and carriers of every message that a request is made of,
  including the parts that generation does not look at: they are read all the
  same, and a request in which one of them is broken is broken.
-/
import GoBindings.Wire.Schema

namespace GoBindings.Descriptor

/-- The types of message that occur in a request. -/
inductive Part where
  | request
  | compilerVersion
  | file
  | message
  | extensionRange
  | reservedRange
  | field
  | oneof
  | enumeration
  | enumReservedRange
  | enumValue
  | service
  | method
  | fileOptions
  | messageOptions
  | fieldOptions
  | oneofOptions
  | enumOptions
  | enumValueOptions
  | serviceOptions
  | methodOptions
  | extensionRangeOptions
  | uninterpretedOption
  | uninterpretedNamePart
  | sourceInfo
  | sourceLocation
deriving DecidableEq, Repr

namespace Part

/-! ### Fields of one kind -/

private def one (number : Nat) (carrier : Wire.Carrier Part) : Nat × Wire.Shape Part :=
  (number, ⟨carrier, false⟩)

private def many (number : Nat) (carrier : Wire.Carrier Part) : Nat × Wire.Shape Part :=
  (number, ⟨carrier, true⟩)

private def integers (numbers : List Nat) : List (Nat × Wire.Shape Part) :=
  numbers.map fun n => one n .varint

private def textFields (numbers : List Nat) : List (Nat × Wire.Shape Part) :=
  numbers.map fun n => one n .text

/-- Options that a compiler has not resolved, which any options may hold. -/
private def unresolved : Nat × Wire.Shape Part := many 999 (.message .uninterpretedOption)

/-! ### The table -/

/-- The fields of a type of message, by number. -/
def fields : Part → List (Nat × Wire.Shape Part)
  | .request =>
    [many 1 .text, one 2 .text, one 3 (.message .compilerVersion), many 15 .bytes]
  | .compilerVersion => integers [1, 2, 3] ++ [one 4 .text]
  | .file =>
    [one 1 .text, one 2 .text, many 3 .text, many 4 (.message .message),
      many 5 (.message .enumeration), many 6 (.message .service), many 7 (.message .field),
      one 8 (.message .fileOptions), one 9 (.message .sourceInfo), many 10 .varint,
      many 11 .varint, one 12 .text]
  | .message =>
    [one 1 .text, many 2 (.message .field), many 3 (.message .message),
      many 4 (.message .enumeration), many 5 (.message .extensionRange),
      many 6 (.message .field), one 7 (.message .messageOptions), many 8 (.message .oneof),
      many 9 (.message .reservedRange), many 10 .text]
  | .extensionRange => integers [1, 2] ++ [one 3 (.message .extensionRangeOptions)]
  | .reservedRange => integers [1, 2]
  | .field =>
    textFields [1, 2, 6, 7, 10] ++ integers [3, 4, 5, 9, 17] ++ [one 8 (.message .fieldOptions)]
  | .oneof => [one 1 .text, one 2 (.message .oneofOptions)]
  | .enumeration =>
    [one 1 .text, many 2 (.message .enumValue), one 3 (.message .enumOptions),
      many 4 (.message .enumReservedRange), many 5 .text]
  | .enumReservedRange => integers [1, 2]
  | .enumValue => [one 1 .text, one 2 .varint, one 3 (.message .enumValueOptions)]
  | .service => [one 1 .text, many 2 (.message .method), one 3 (.message .serviceOptions)]
  | .method => textFields [1, 2, 3] ++ [one 4 (.message .methodOptions)] ++ integers [5, 6]
  | .fileOptions =>
    textFields [1, 8, 11, 36, 37, 39, 40, 41, 44, 45]
      ++ integers [9, 10, 16, 17, 18, 20, 23, 27, 31, 42] ++ [unresolved]
  | .messageOptions => integers [1, 2, 3, 7] ++ [unresolved]
  | .fieldOptions => integers [1, 2, 3, 5, 6, 10] ++ [unresolved]
  | .oneofOptions => [unresolved]
  | .enumOptions => integers [2, 3] ++ [unresolved]
  | .enumValueOptions => integers [1] ++ [unresolved]
  | .serviceOptions => integers [33] ++ [unresolved]
  | .methodOptions => integers [33, 34] ++ [unresolved]
  | .extensionRangeOptions => [unresolved]
  | .uninterpretedOption =>
    [many 2 (.message .uninterpretedNamePart), one 3 .text, one 4 .varint, one 5 .varint,
      one 6 .fixed64, one 7 .bytes, one 8 .text]
  | .uninterpretedNamePart => [one 1 .text, one 2 .varint]
  | .sourceInfo => [many 1 (.message .sourceLocation)]
  | .sourceLocation =>
    [many 1 .varint, many 2 .varint, one 3 .text, one 4 .text, many 6 .text]

end Part

/-- The layout of requests and declarations. A plain field that is skipped needs
    nesting budget left. -/
def layout : Wire.Schema Part where
  shape? part number := part.fields.lookup number
  fieldCost _ := 0
  skipCost := 1

/-- The parts that hold options. -/
def Part.isOptions : Part → Bool
  | .fileOptions | .messageOptions | .fieldOptions | .oneofOptions | .enumOptions
  | .enumValueOptions | .serviceOptions | .methodOptions | .extensionRangeOptions => true
  | _ => false

/-- The layout for a reader that keeps options to interpret them later. It skips the
    fields of options before it reads them, so that each needs budget left. -/
def optionsLayout : Wire.Schema Part where
  shape? part number := part.fields.lookup number
  fieldCost part := if part.isOptions then 1 else 0
  skipCost := 1

end GoBindings.Descriptor

/-
  GoBindings/Descriptor/Read.lean
  ===============================
  **Reading declarations from bytes.**

  The bytes have to be a message that fits the layout of a file; then each
  declaration is taken from its fields.
-/
import GoBindings.Descriptor.Basic
import GoBindings.Descriptor.Layout

namespace GoBindings.Descriptor

def EnumValue.ofWire (m : Wire.Message) : EnumValue where
  name := m.text 1
  number := m.int32 2
  options := m.content 3

def Enum.ofWire (m : Wire.Message) : Enum where
  name := m.text 1
  values := (m.messages 2).map EnumValue.ofWire
  reservedRanges := (m.messages 4).map fun r => (r.int32 1, r.int32 2)
  options := m.content 3

/-- The type with a code. A code that no type has counts as the first one. -/
def FieldType.ofCode : Int → FieldType
  | 2 => .scalar .float
  | 3 => .scalar .int64
  | 4 => .scalar .uint64
  | 5 => .scalar .int32
  | 6 => .scalar .fixed64
  | 7 => .scalar .fixed32
  | 8 => .scalar .bool
  | 9 => .scalar .string
  | 10 => .group
  | 11 => .message
  | 12 => .scalar .bytes
  | 13 => .scalar .uint32
  | 14 => .enumeration
  | 15 => .scalar .sfixed32
  | 16 => .scalar .sfixed64
  | 17 => .scalar .sint32
  | 18 => .scalar .sint64
  | _ => .scalar .double

/-- The label of a field that may occur any number of times. -/
def repeatedLabel : Int := 3

def Field.ofWire (m : Wire.Message) : Field where
  name := m.text 1
  number := m.int32 3
  repeated := m.int32 4 = repeatedLabel
  packed := ((m.message 8).number? 2).map (· != 0)
  type := FieldType.ofCode (m.int32 5)
  typeName := m.text 6
  extendee := m.text? 2
  defaultValue := m.text? 7
  jsonName := m.text? 10
  oneof := m.int32? 9
  explicitlyOptional := m.flag 17
  options := m.content 8

def ExtensionRange.ofWire (m : Wire.Message) : ExtensionRange where
  start := m.int32 1
  stop := m.int32 2
  options := m.content 3

def Oneof.ofWire (m : Wire.Message) : Oneof where
  name := m.text 1
  options := m.content 2

/-- Reads messages nested up to a depth, which the layout limits as well. -/
def Message.ofWire : Nat → Wire.Message → Message
  | depth, m =>
    { name := m.text 1
      fields := (m.messages 2).map Field.ofWire
      oneofs := (m.messages 8).map Oneof.ofWire
      nested :=
        match depth with
        | 0 => []
        | depth + 1 => (m.messages 3).map (Message.ofWire depth)
      enums := (m.messages 4).map Enum.ofWire
      extensions := (m.messages 6).map Field.ofWire
      extensionRanges := (m.messages 5).map ExtensionRange.ofWire
      reservedRanges := (m.messages 9).map fun r => (r.int32 1, r.int32 2)
      mapEntry := (m.message 7).flag 7
      options := m.content 7 }

def Method.ofWire (m : Wire.Message) : Method where
  name := m.text 1
  inputType := m.text 2
  outputType := m.text 3
  clientStreaming := m.flag 5
  serverStreaming := m.flag 6
  options := m.content 4

def Service.ofWire (m : Wire.Message) : Service where
  name := m.text 1
  methods := (m.messages 2).map Method.ofWire
  options := m.content 3

/-- The version that a file names; a file that names none is in the second one. -/
def LanguageVersion.named? : Option String → Option LanguageVersion
  | none => some .proto2
  | some "proto2" => some .proto2
  | some "proto3" => some .proto3
  | some _ => none

def File.ofWire (m : Wire.Message) : File where
  name := m.text 1
  package := m.text 2
  version := LanguageVersion.named? (m.text? 12)
  dependencies := m.texts 3
  publicDependencies := m.int32s 10
  weakDependencies := m.int32s 11
  messages := (m.messages 4).map (Message.ofWire Wire.Schema.nestingLimit)
  enums := (m.messages 5).map Enum.ofWire
  services := (m.messages 6).map Service.ofWire
  extensions := (m.messages 7).map Field.ofWire
  goPackage := (m.message 8).text 11
  options := m.content 8
  optionsWithinLimit := optionsLayout.accepts .file m

/-- The file that the bytes declare, if they are well formed. -/
def File.read? (bytes : List UInt8) : Option File := do
  let m ← Wire.Message.read? bytes
  if layout.accepts .file m then some (File.ofWire m) else none

end GoBindings.Descriptor

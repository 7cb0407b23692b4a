/-
  GoBindings/Pool/Types.lean
  ==========================
  **The declared types that values are read by.**

  A message is read by the fields of its type and then by the extensions that are
  known to belong to the type. Every field has a value when it is not set: nothing,
  its declared default, or the default of its type, which for an enum is the first
  of its values.
-/
import GoBindings.Pool.DefaultText
import GoBindings.Pool.Linked

namespace GoBindings

structure Types where
  messages : List Linked.MessageType
  enums : List Linked.EnumType
  /-- The extension of a message type with a number. -/
  extensionOf? : String → Nat → Option Linked.Extension

namespace Types

def message? (t : Types) (fullName : String) : Option Linked.MessageType :=
  t.messages.find? (·.fullName == fullName)

def enumeration? (t : Types) (fullName : String) : Option Linked.EnumType :=
  t.enums.find? (·.fullName == fullName)

/-- A field that a message type itself declares. -/
def declared? (t : Types) (type : String) (number : Nat) : Option Linked.Field :=
  (t.message? type).bind (·.field? number)

/-- A field or extension of a message type. -/
def field? (t : Types) (type : String) (number : Nat) : Option Linked.Field :=
  (t.declared? type number).or ((t.extensionOf? type number).map (·.field))

/-- The type of the entries of a field, if the field is a map. -/
def entryType? (t : Types) (f : Linked.Field) : Option Linked.MessageType :=
  if f.repeated then ((f.kind.message?).bind t.message?).filter (·.isEntry) else none

/-- The number of an enum's value: the one with a name, or the first one. -/
def enumNumber (t : Types) (fullName : String) (name : Option String) : Int :=
  match t.enumeration? fullName with
  | some e => ((name.bind fun n => e.values.lookup n).or (e.values.head?.map (·.2))).getD 0
  | none => 0

/-- The default of a field that holds one value, if that is not a message. -/
def defaultPayload? (t : Types) (f : Linked.Field) : Option Wire.Payload :=
  match f.kind with
  | .scalar type =>
    some ((f.defaultValue.bind fun text => DefaultText.payload? text type).getD type.zero)
  | .enumeration fullName =>
    some (.varint (Wire.bits64 (t.enumNumber fullName f.defaultValue)))
  | .message _ => none
  | .group _ => none

end Types

end GoBindings

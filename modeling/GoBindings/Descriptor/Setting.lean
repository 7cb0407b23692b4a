/-
  GoBindings/Descriptor/Setting.lean
  ==================================
  **Options that are written out but not yet resolved.**

  A compiler that does not know an option keeps it as it was written: the path of
  names that leads to a field, and a value of one of the forms that the language
  has for values. Which field is meant and whether the value suits it can only be
  said once the declarations of the option are known.
-/
import GoBindings.Wire.Fields

namespace GoBindings.Descriptor

/-- One name of the path to an option. -/
structure NamePart where
  name : String
  /-- Whether the name is that of an extension. -/
  isExtension : Bool
deriving DecidableEq, Repr

/-- An option as it was written. -/
structure Setting where
  path : List NamePart
  identifier : Option String
  positive : Option Nat
  negative : Option Int
  /-- The bits of a number with a decimal point. -/
  decimal : Option Nat
  text : Option (List UInt8)
  /-- Fields of a message, as they were written. -/
  aggregate : Option String
deriving DecidableEq, Repr

def NamePart.ofWire (m : Wire.Message) : NamePart where
  name := m.text 1
  isExtension := m.flag 2

def Setting.ofWire (m : Wire.Message) : Setting where
  path := (m.messages 2).map NamePart.ofWire
  identifier := m.text? 3
  positive := m.number? 4
  negative := (m.number? 5).map Wire.toInt64
  decimal := ((m.payloads 6).filterMap Wire.Payload.fixed64?).getLast?
  text := (m.blobs 7).getLast?
  aggregate := m.text? 8

/-- The number of the field in which any options keep what is not yet resolved. -/
def settingsNumber : Nat := 999

/-- The fields of a set of options. -/
def fieldsIn (options : List UInt8) : Wire.Message := (Wire.Message.read? options).getD []

/-- The options in a set of options that are not yet resolved. -/
def settingsIn (options : List UInt8) : List Setting :=
  ((fieldsIn options).messages settingsNumber).map Setting.ofWire

end GoBindings.Descriptor

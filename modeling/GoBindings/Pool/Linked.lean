/-
  GoBindings/Pool/Linked.lean
  ===========================
  **Declarations whose references are resolved.**

  What is left of a file once its names are resolved is what options are read by:
  the fields that every message type has and how they are carried, the values of
  enums, the extensions, and the options of services and methods.
-/
import GoBindings.Pool.Name

namespace GoBindings.Linked

/-- The type of a field. A declared type is known by its full name. -/
inductive Kind where
  | scalar (type : Descriptor.Scalar)
  | enumeration (fullName : String)
  | message (fullName : String)
  /-- A message that is carried as a group. -/
  | group (fullName : String)
deriving DecidableEq, Repr

namespace Kind

/-- The type of the values themselves; those of an enum are integers. -/
def scalar? : Kind → Option Descriptor.Scalar
  | .scalar type => some type
  | .enumeration _ => some .int32
  | _ => none

def message? : Kind → Option String
  | .message type => some type
  | .group type => some type
  | _ => none

/-- Whether values can be written together. -/
def isPackable (kind : Kind) : Bool := kind.scalar?.any (·.tag != .bytes)

end Kind

/-- A field of a message type, or an extension of one. -/
structure Field where
  name : String
  number : Int
  kind : Kind
  repeated : Bool
  /-- Whether the values of a repeated field are written together. -/
  packed : Bool
  /-- Whether a field that is set to nothing differs from one that is not set. -/
  hasPresence : Bool
  /-- The numbers of the other members of the field's oneof. -/
  rivals : List Nat
  defaultValue : Option String
deriving Repr

/-- Whether a number lies in one of the ranges, which are without their ends. -/
def inRanges (ranges : List (Int × Int)) (number : Int) : Bool :=
  ranges.any fun r => r.1 ≤ number && number < r.2

structure MessageType where
  fullName : String
  fields : List Field
  extensionRanges : List (Int × Int)
  reservedRanges : List (Int × Int)
  /-- Whether the type is that of the entries of a map. -/
  isEntry : Bool
deriving Repr

def MessageType.field? (t : MessageType) (number : Nat) : Option Field :=
  t.fields.find? (·.number == (number : Int))

structure EnumType where
  fullName : String
  values : List (String × Int)
deriving Repr

structure Extension where
  fullName : String
  extendee : String
  field : Field
deriving Repr

structure Method where
  name : String
  options : List UInt8
deriving Repr

structure Service where
  fullName : String
  methods : List Method
  options : List UInt8
deriving Repr

structure File where
  name : String
  package : String
  /-- The dependencies that a file importing this one may see as well. -/
  passedOn : List String
  definitions : List Definition
  messages : List MessageType
  enums : List EnumType
  extensions : List Extension
  services : List Service
deriving Repr

end GoBindings.Linked

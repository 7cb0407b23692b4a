/-
  GoBindings/Descriptor/Basic.lean
  ================================
  **Declarations of a source file.**

  A compiled source file lists its messages, enums, services and extensions.
  Kept is what generation looks at and what the reading of custom options depends
  on. Options are kept as bytes, because an option declared in another file can
  only be read once that file is known. An unset text is empty and an unset number
  is zero, except where being set makes a difference.
-/
import GoBindings.Descriptor.Scalar

namespace GoBindings.Descriptor

structure EnumValue where
  name : String
  number : Int
  options : List UInt8
deriving Repr

structure Enum where
  name : String
  values : List EnumValue
  /-- Numbers that no value may have; both ends are in the range. -/
  reservedRanges : List (Int × Int)
  options : List UInt8
deriving Repr

/-- What a field says about its type. A declared type is found by name. -/
inductive FieldType where
  | scalar (type : Scalar)
  | message
  | group
  | enumeration
deriving DecidableEq, Repr

structure Field where
  name : String
  number : Int
  repeated : Bool
  /-- Whether its values are to be written together, if anything is said about it. -/
  packed : Option Bool
  type : FieldType
  typeName : String
  /-- The message that an extension extends. -/
  extendee : Option String
  defaultValue : Option String
  jsonName : Option String
  /-- The position of the oneof that the field is a member of. -/
  oneof : Option Int
  /-- Whether the field is declared optional where that is not the rule. -/
  explicitlyOptional : Bool
  options : List UInt8
deriving Repr

/-- Field numbers from `start` up to, and without, `stop`. -/
structure ExtensionRange where
  start : Int
  stop : Int
  options : List UInt8
deriving Repr

structure Oneof where
  name : String
  options : List UInt8
deriving Repr

structure Message where
  name : String
  fields : List Field
  oneofs : List Oneof
  nested : List Message
  enums : List Enum
  extensions : List Field
  extensionRanges : List ExtensionRange
  /-- Numbers that no field may have, each range without its end. -/
  reservedRanges : List (Int × Int)
  /-- Whether the message is the entry type of a map field. -/
  mapEntry : Bool
  options : List UInt8
deriving Repr

structure Method where
  name : String
  inputType : String
  outputType : String
  clientStreaming : Bool
  serverStreaming : Bool
  options : List UInt8
deriving Repr

structure Service where
  name : String
  methods : List Method
  options : List UInt8
deriving Repr

/-- The versions of the language that differ in their rules. -/
inductive LanguageVersion where
  | proto2
  | proto3
deriving DecidableEq, Repr

structure File where
  name : String
  package : String
  /-- The version that the file says it is written in, if that is one. -/
  version : Option LanguageVersion
  dependencies : List String
  /-- Positions of the dependencies that files importing this one see as well. -/
  publicDependencies : List Int
  /-- Positions of the dependencies that may be missing at run time. -/
  weakDependencies : List Int
  messages : List Message
  enums : List Enum
  services : List Service
  extensions : List Field
  /-- The declared Go package, empty if there is none. -/
  goPackage : String
  options : List UInt8
  /-- Whether no set of options is nested so deep that it cannot be kept for later. -/
  optionsWithinLimit : Bool
deriving Repr

/-- Whether the file follows the rules of the third version of the language. -/
def File.isProto3 (f : File) : Bool := f.version == some .proto3

/-! ### Names -/

/-- A name inside a scope. The scope without a name adds nothing. -/
def qualify (scope name : String) : String :=
  if scope.isEmpty then name else scope ++ "." ++ name

/-! ### Declarations at every depth -/

/-- A message or enum with the path of names that leads to it from its file. -/
inductive Declaration where
  /-- A message; the path ends in its own name. -/
  | message (path : String) (m : Message)
  /-- An enum and the path of the message that holds it, if one does. -/
  | enumeration (parent : Option String) (e : Enum)
deriving Repr

/-- The path of something declared under a parent. -/
def pathUnder (parent : Option String) (name : String) : String :=
  match parent with
  | some p => p ++ "." ++ name
  | none => name

mutual

/-- A message, then the declarations inside it: messages first. A message that is
    left out takes what it holds with it. -/
def Message.declarations (leftOut : Message → Bool) (parent : Option String) :
    Message → List Declaration
  | ⟨name, fields, oneofs, nested, enums, extensions, ranges, reserved, mapEntry, options⟩ =>
    let m : Message :=
      ⟨name, fields, oneofs, nested, enums, extensions, ranges, reserved, mapEntry, options⟩
    if leftOut m then []
    else
      .message (pathUnder parent name) m
        :: (declarationsOfAll leftOut (some (pathUnder parent name)) nested
          ++ enums.map (.enumeration (some (pathUnder parent name))))

/-- The declarations of messages one after the other. -/
def declarationsOfAll (leftOut : Message → Bool) (parent : Option String) :
    List Message → List Declaration
  | [] => []
  | m :: rest => m.declarations leftOut parent ++ declarationsOfAll leftOut parent rest

end

/-- All messages and enums of a file, without those that are left out. -/
def File.declarations (f : File) (leftOut : Message → Bool) : List Declaration :=
  declarationsOfAll leftOut none f.messages ++ f.enums.map (.enumeration none)

end GoBindings.Descriptor

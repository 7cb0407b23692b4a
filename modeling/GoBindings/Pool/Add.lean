/-
  GoBindings/Pool/Add.lean
  ========================
  **Adding files to the pool.**

  Files are added one at a time. A file that breaks a rule is left out as a whole:
  it adds no name, and files that depend on it are left out in turn. The rules are
  about names, imports, the numbers of fields, default values, enums and options.

  Leaving out a file shows in two places. Extensions are registered while the
  references of their file are resolved, unless names are wrong, and registrations
  are taken back by number: those below the number of message types in the pool
  stay, all others go, whichever file they came from. A number that stays is that of
  the next extension. And a package stays defined if it is around that of a file in
  the pool, which is also said of the package without a name.
-/
import GoBindings.Pool.Interpret
import GoBindings.Pool.Link

namespace GoBindings

/-- Why a file is left out. -/
inductive Rejection where
  | unreadableOptions
  | badName
  | badImport
  | unresolvedName
  | badField
  | badDefault
  | badEnum
  | badOption
deriving DecidableEq, Repr

def Rejection.message : Rejection → String
  | .unreadableOptions => "options are nested too deep"
  | .badName => "a name, the first value of an enum or the version of the language is wrong"
  | .badImport => "a dependency is not available"
  | .unresolvedName => "a type name cannot be resolved"
  | .badField => "a field has a number that it cannot have"
  | .badDefault => "a default value is not of the type of its field"
  | .badEnum => "an enum has a number that it cannot have"
  | .badOption => "an option cannot be read or set"

/-! ### Fields -/

/-- Numbers that fields can have at all. -/
def isFieldNumber (n : Int) : Bool :=
  1 ≤ n && n ≤ 536870911 && !(19000 ≤ n && n < 20000)

/-- Whether all elements differ. -/
def allDistinct {α : Type} [BEq α] : List α → Bool
  | [] => true
  | x :: rest => !rest.contains x && allDistinct rest

/-- A message has room for a field, or for an extension, outside of the reserved
    ranges: extensions are numbered inside the extension ranges, fields outside. -/
def Linked.MessageType.hasRoomFor (t : Linked.MessageType) (f : Descriptor.Field) : Bool :=
  isFieldNumber f.number && !Linked.inRanges t.reservedRanges f.number
    && Linked.inRanges t.extensionRanges f.number == f.extendee.isSome

namespace Descriptor

/-- Every underscore goes, and makes the letter after it upper case. -/
def lowerCamel (upper : Bool) : List Char → List Char
  | [] => []
  | '_' :: rest => lowerCamel true rest
  | c :: rest => (if upper then c.toUpper else c) :: lowerCamel false rest

/-- The name of a field in JSON: the declared one, or the one derived from its name. -/
def Field.nameInJson (f : Field) : String :=
  f.jsonName.getD (String.ofList (lowerCamel false f.name.toList))

/-- A name without what sets apart words in it. -/
def Field.plainName (f : Field) : String :=
  String.ofList ((f.name.toList.filter (· != '_')).map Char.toLower)

/-- Whether the names of fields differ also, in the newer language, if words in them are
    not set apart. -/
def Message.setsNamesApart (isProto3 : Bool) (m : Message) : Bool :=
  !isProto3 || allDistinct (m.fields.map Field.plainName)

/-- Whether fields differ in number and in JSON. -/
def Message.setsFieldsApart (m : Message) : Bool :=
  allDistinct (m.fields.map (·.number)) && allDistinct (m.fields.map Field.nameInJson)

/-- Whether the oneof that a field is a member of exists. -/
def Message.hasOneofOf (m : Message) (f : Field) : Bool :=
  f.oneof.all fun i => 0 ≤ i && i < (m.oneofs.length : Int)

/-- Whether a message numbers its fields as it may. -/
def Message.isWellFormed (m : Message) (t : Linked.MessageType) : Bool :=
  m.setsFieldsApart && m.fields.all fun f => t.hasRoomFor f && m.hasOneofOf f

/-! ### Enums -/

/-- An enum has a value, and the first one is zero where the language says so. -/
def Enum.startsWell (isProto3 : Bool) (e : Enum) : Bool :=
  match e.values with
  | [] => false
  | first :: _ => !isProto3 || first.number == 0

/-- Whether no value has a reserved number. -/
def Enum.avoidsReserved (e : Enum) : Bool :=
  e.values.all fun v => e.reservedRanges.all fun r => v.number < r.1 || r.2 < v.number

/-- The option that lets values of an enum share a number, resolved. -/
def aliasNumber : Nat := 2

/-- The option that lets values of an enum share a number, as it is written. -/
def aliasPath : List NamePart := [⟨"allow_alias", false⟩]

/-- Whether an enum lets its values share a number, in options resolved or not. -/
def Enum.allowsAlias (e : Enum) : Bool :=
  (fieldsIn e.options).flag aliasNumber
    || (settingsIn e.options).any fun v => v.path == aliasPath && v.identifier == some "true"

/-- Whether values share a number only if the enum lets them. -/
def Enum.setsValuesApart (e : Enum) : Bool :=
  e.allowsAlias || allDistinct (e.values.map (·.number))

/-! ### The options of a file -/

open Pool (OptionBlock)

def Field.optionBlock (scope : String) (f : Field) : OptionBlock :=
  ⟨"google.protobuf.FieldOptions", qualify scope f.name, f.options⟩

def Enum.optionBlock (scope : String) (e : Enum) : OptionBlock :=
  ⟨"google.protobuf.EnumOptions", qualify scope e.name, e.options⟩

def EnumValue.optionBlock (scope : String) (v : EnumValue) : OptionBlock :=
  ⟨"google.protobuf.EnumValueOptions", qualify scope v.name, v.options⟩

def Member.optionBlocks : Member → List OptionBlock
  | .message scope m =>
    let fullName := qualify scope m.name
    ⟨"google.protobuf.MessageOptions", fullName, m.options⟩
      :: (m.fields.map (Field.optionBlock fullName)
        ++ m.oneofs.map (fun o =>
          ⟨"google.protobuf.OneofOptions", qualify fullName o.name, o.options⟩)
        ++ m.extensionRanges.map (fun r =>
          ⟨"google.protobuf.ExtensionRangeOptions", fullName, r.options⟩))
  | .enumeration scope e => e.optionBlock scope :: e.values.map (EnumValue.optionBlock scope)
  | .extensionField scope x => [x.optionBlock scope]

/-- Every set of options in a file but those of services and methods. -/
def File.optionBlocks (f : File) : List OptionBlock :=
  ⟨"google.protobuf.FileOptions", f.package, f.options⟩
    :: f.members.flatMap Member.optionBlocks

end Descriptor

namespace Pool

/-! ### Rules for a file -/

/-- Whether nothing is wrong with a file by itself: its version is known, its names are
    defined once, those of fields are set apart, and enums start well. -/
def namesFit (p : Pool) (f : Descriptor.File) : Bool :=
  f.version.isSome
    && compatible p.definitions f.definitions
    && f.messageTypes.all (fun (_, m) => m.setsNamesApart f.isProto3)
    && f.allEnums.all (fun (_, e) => e.startsWell f.isProto3)

/-- Whether all dependencies are there, and every position among them exists. -/
def importsFit (p : Pool) (f : Descriptor.File) : Bool :=
  f.dependencies.all (fun d => (p.file? d).isSome || d == f.name)
    && (f.publicDependencies ++ f.weakDependencies).all fun i =>
      0 ≤ i && i < (f.dependencies.length : Int)

/-- Whether messages number their fields as they may, and extensions have room in the
    messages that they extend. -/
def fieldsFit (p : Pool) (f : Descriptor.File) (linked : Linked.File) : Bool :=
  (f.messageTypes.zip linked.messages).all (fun ((_, m), t) => m.isWellFormed t)
    && (f.allExtensions.zip linked.extensions).all fun ((_, x), e) =>
      (p.message? e.extendee).any (·.hasRoomFor x)

/-- Whether the default value of a field, if it has one, is of the field's type. -/
def defaultFits (p : Pool) (f : Linked.Field) : Bool :=
  f.defaultValue.all fun text =>
    match f.kind with
    | .scalar type => (DefaultText.payload? text type).isSome
    | .enumeration fullName =>
      (p.types.enumeration? fullName).any fun e => (e.values.lookup text).isSome
    | .message _ => false
    | .group _ => false

def defaultsFit (p : Pool) (linked : Linked.File) : Bool :=
  linked.messages.all (fun m => m.fields.all p.defaultFits)
    && linked.extensions.all fun x => p.defaultFits x.field

/-- The rules that need no options interpreted, for a file that was added already. -/
def check (p : Pool) (f : Descriptor.File) (linked : Linked.File) : Except Rejection Unit :=
  if !p.importsFit f then .error .badImport
  else if !p.fieldsFit f linked then .error .badField
  else if !p.defaultsFit linked then .error .badDefault
  else if !f.allEnums.all (fun (_, e) => e.avoidsReserved && e.setsValuesApart) then
    .error .badEnum
  else .ok ()

/-! ### Interpreting the options of a file -/

/-- The option that makes a message the entry of a map. -/
def entryNumber : Nat := 7

/-- A message type after the options of its message were interpreted, which may say that
    it is the type of the entries of a map. -/
def interpretMessage? (p : Pool) (s : Surroundings) (fullName : String)
    (m : Descriptor.Message) (t : Linked.MessageType) : Option Linked.MessageType :=
  (p.interpret? s ⟨"google.protobuf.MessageOptions", fullName, m.options⟩).map fun options =>
    { t with isEntry := (Descriptor.fieldsIn options).flag entryNumber }

/-- A method with its options interpreted. -/
def interpretMethod? (p : Pool) (s : Surroundings) (service : String) (m : Linked.Method) :
    Option Linked.Method :=
  (p.interpret? s ⟨"google.protobuf.MethodOptions", Descriptor.qualify service m.name,
    m.options⟩).map ({ m with options := · })

/-- A service with its options and those of its methods interpreted. -/
def interpretService? (p : Pool) (s : Surroundings) (v : Linked.Service) :
    Option Linked.Service := do
  let options ← p.interpret? s ⟨"google.protobuf.ServiceOptions", v.fullName, v.options⟩
  let methods ← v.methods.mapM (p.interpretMethod? s v.fullName)
  some ⟨v.fullName, methods, options⟩

/-- The file with its options interpreted, if all can be. -/
def interpretFile? (p : Pool) (s : Surroundings) (f : Descriptor.File) (linked : Linked.File) :
    Option Linked.File :=
  if f.optionBlocks.all fun b => (p.interpret? s b).isSome then do
    let messages ← (f.messageTypes.zip linked.messages).mapM
      fun ((fullName, m), t) => p.interpretMessage? s fullName m t
    let services ← linked.services.mapM (p.interpretService? s)
    some { linked with messages := messages, services := services }
  else none

/-! ### Adding -/

/-- The registrations for extensions that are numbered from `first` on, given the
    messages that they extend. -/
def registrationsFrom : Nat → List (Option String) → List (String × Nat)
  | _, [] => []
  | first, none :: rest => registrationsFrom (first + 1) rest
  | first, some extended :: rest => (extended, first) :: registrationsFrom (first + 1) rest

/-- Whether a package is around that of a file. -/
def surrounds (package : String) (f : Linked.File) : Bool :=
  match Text.dropStart? package f.package with
  | some rest => rest.isEmpty || rest.startsWith "."
  | none => false

/-- The pool with a file left out after some extensions were registered. -/
def leavingOut (p : Pool) (f : Descriptor.File) (registered : List (String × Nat)) : Pool :=
  { p with
    registrations := registered.filter fun r =>
      (p.message? r.1).isSome && r.2 < p.messages.length
    leftovers := p.leftovers ++ (f.definitions.filter fun d =>
      d.entity == .package && p.files.any (surrounds d.name)
        && !p.definitions.any (·.name == d.name)) }

/-- What the names in a file are resolved against. -/
def surroundingsOf (p : Pool) (f : Descriptor.File) : Surroundings :=
  ⟨p.definitions ++ f.definitions, p.visibleTo f⟩

/-- The registrations after those for the extensions of a file. -/
def registering (p : Pool) (f : Descriptor.File) : List (String × Nat) :=
  p.registrations
    ++ registrationsFrom p.extensions.length (f.extendedTypes (p.surroundingsOf f))

/-- The file with references and options resolved, if it keeps the rules. -/
def accept (p : Pool) (f : Descriptor.File) : Except Rejection Linked.File :=
  match f.link? (p.surroundingsOf f) with
  | none => .error .unresolvedName
  | some linked => do
    let extended : Pool := ⟨p.files ++ [linked], p.registering f, p.leftovers⟩
    extended.check f linked
    match extended.interpretFile? (p.surroundingsOf f) f linked with
    | some interpreted => .ok interpreted
    | none => .error .badOption

/-- The pool after a file was added, and why the file is left out if it is. A file
    whose name is in the pool adds nothing. -/
def add (p : Pool) (f : Descriptor.File) : Pool × Option Rejection :=
  if !f.optionsWithinLimit then (p, some .unreadableOptions)
  else if (p.file? f.name).isSome then (p, none)
  else if !p.namesFit f then (p.leavingOut f p.registrations, some .badName)
  else
    match p.accept f with
    | .ok linked => (⟨p.files ++ [linked], p.registering f, p.leftovers⟩, none)
    | .error r => (p.leavingOut f (p.registering f), some r)

end Pool

end GoBindings

/-
  GoBindings/Pool/Name.lean
  =========================
  **The names that a file defines.**

  Everything that a file declares has a full name: the name of what holds it, a
  dot, and its own name. The values of an enum are named beside the enum, not
  inside it. A package defines its own name and those of the packages around it.
-/
import GoBindings.Descriptor.Basic

namespace GoBindings

/-- What a full name can stand for. -/
inductive Entity where
  | package
  | message
  | field
  | oneof
  | enumeration
  | enumValue
  | service
  | method
  | extensionField
deriving DecidableEq, Repr

/-- Whether other names can begin with the name of such a thing. -/
def Entity.isScope : Entity → Bool
  | .package | .message | .enumeration | .service => true
  | _ => false

/-- A full name, what it stands for, and the file that defines it. -/
structure Definition where
  name : String
  entity : Entity
  file : String
deriving DecidableEq, Repr

/-! ### Scopes around a name -/

/-- The beginnings of `rest` that end before a dot, each after `read`; longer ones last. -/
def beginnings (read : List Char) : List Char → List String
  | [] => []
  | c :: rest =>
    if c = '.' then String.ofList read :: beginnings (read ++ [c]) rest
    else beginnings (read ++ [c]) rest

/-- A name and the names around it, innermost first. -/
def enclosing (name : String) : List String := name :: (beginnings [] name.toList).reverse

namespace Descriptor

/-! ### Members at every depth -/

/-- What a file or a message holds, with the full name of its scope. -/
inductive Member where
  | message (scope : String) (m : Message)
  | enumeration (scope : String) (e : Enum)
  | extensionField (scope : String) (x : Field)
deriving Repr

mutual

/-- A message, then what it holds: messages, enums and extensions in this order. -/
def Message.members (scope : String) : Message → List Member
  | ⟨name, fields, oneofs, nested, enums, extensions, ranges, reserved, mapEntry, options⟩ =>
    .message scope
        ⟨name, fields, oneofs, nested, enums, extensions, ranges, reserved, mapEntry, options⟩
      :: (membersOfAll (qualify scope name) nested
        ++ enums.map (.enumeration (qualify scope name))
        ++ extensions.map (.extensionField (qualify scope name)))

/-- The members of messages one after the other. -/
def membersOfAll (scope : String) : List Message → List Member
  | [] => []
  | m :: rest => m.members scope ++ membersOfAll scope rest

end

/-- All messages, enums and extensions of a file, entry types of maps included. -/
def File.members (f : File) : List Member :=
  membersOfAll f.package f.messages
    ++ f.enums.map (.enumeration f.package)
    ++ f.extensions.map (.extensionField f.package)

/-- The message types of a file with their full names. -/
def File.messageTypes (f : File) : List (String × Message) :=
  f.members.filterMap fun
    | .message scope m => some (qualify scope m.name, m)
    | _ => none

/-- The enums of a file with the scope of each. -/
def File.allEnums (f : File) : List (String × Enum) :=
  f.members.filterMap fun
    | .enumeration scope e => some (scope, e)
    | _ => none

/-- The extensions of a file with the scope of each. -/
def File.allExtensions (f : File) : List (String × Field) :=
  f.members.filterMap fun
    | .extensionField scope x => some (scope, x)
    | _ => none

/-! ### What a file defines -/

def Message.definitions (file fullName : String) (m : Message) : List Definition :=
  ⟨fullName, .message, file⟩
    :: (m.fields.map (fun f => ⟨qualify fullName f.name, .field, file⟩)
      ++ m.oneofs.map (fun o => ⟨qualify fullName o.name, .oneof, file⟩))

def Enum.definitions (file scope : String) (e : Enum) : List Definition :=
  ⟨qualify scope e.name, .enumeration, file⟩
    :: e.values.map (fun v => ⟨qualify scope v.name, .enumValue, file⟩)

def Service.definitions (file fullName : String) (s : Service) : List Definition :=
  ⟨fullName, .service, file⟩
    :: s.methods.map (fun m => ⟨qualify fullName m.name, .method, file⟩)

def Member.definitions (file : String) : Member → List Definition
  | .message scope m => m.definitions file (qualify scope m.name)
  | .enumeration scope e => e.definitions file scope
  | .extensionField scope x => [⟨qualify scope x.name, .extensionField, file⟩]

def File.packages (f : File) : List String :=
  if f.package.isEmpty then [] else enclosing f.package

def File.definitions (f : File) : List Definition :=
  f.packages.map (fun p => ⟨p, .package, f.name⟩)
    ++ f.members.flatMap (Member.definitions f.name)
    ++ f.services.flatMap (fun s => s.definitions f.name (qualify f.package s.name))

end Descriptor

/-- Whether a name may be defined by both: only packages are shared. -/
def Definition.agrees (a b : Definition) : Bool :=
  a.name != b.name || (a.entity == .package && b.entity == .package)

/-- Whether new definitions go together with each other and with the old ones. -/
def compatible (old : List Definition) : List Definition → Bool
  | [] => true
  | d :: rest => old.all d.agrees && compatible (d :: old) rest

end GoBindings

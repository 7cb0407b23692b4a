/-
  GoBindings/TypeIndex.lean
  =========================
  **The message and enum types of a request.**

  Every message of every file is listed once under its full name, those inside
  other messages included, together with the Go package and the Go name that it
  is generated under. Entry types of map fields have no Go type, so they are left
  out with all they hold. Of two declarations with one name the first counts.
-/
import GoBindings.Go.CamelCase
import GoBindings.Placement

namespace GoBindings

open Descriptor (qualify pathUnder Declaration)

/-- A message type and where it is generated. -/
structure MessageRef where
  fullName : String
  package : String
  file : String
  goPackage : Go.Package
  goIdent : String
deriving DecidableEq, Repr

/-- An enum and the package-level Go identifiers generated for it. -/
structure EnumRef where
  fullName : String
  goPackage : Go.Package
  /-- The type, the maps of names and of values, then a constant for each value. -/
  goIdents : List String
deriving DecidableEq, Repr

/-- Keeps the first element of each key. -/
def firstBy {α : Type} (key : α → String) : List α → List α
  | [] => []
  | x :: rest => x :: (firstBy key rest).filter (fun y => key y != key x)

/-- What a request declares. -/
structure TypeIndex where
  /-- Each full name once, in the order of declaration. -/
  messages : List MessageRef
  enums : List EnumRef
  /-- The Go package of each file name. -/
  files : List (String × Go.Package)
deriving DecidableEq, Repr

namespace TypeIndex

/-! ### What one file declares -/

/-- The Go identifiers for an enum inside the message with a path, if there is one.
    The constants of an enum inside a message carry the message's name. -/
def enumIdents (parent : Option String) (e : Descriptor.Enum) : List String :=
  let ident := Go.camelCase (pathUnder parent e.name)
  let scope := (parent.map Go.camelCase).getD ident
  ident :: (ident ++ "_name") :: (ident ++ "_value")
    :: e.values.map fun v => scope ++ "_" ++ v.name

def messageRef (f : Descriptor.File) (goPackage : Go.Package) (path : String) : MessageRef :=
  ⟨qualify f.package path, f.package, f.name, goPackage, Go.camelCase path⟩

def enumRef (f : Descriptor.File) (goPackage : Go.Package) (parent : Option String)
    (e : Descriptor.Enum) : EnumRef :=
  ⟨qualify f.package (pathUnder parent e.name), goPackage, enumIdents parent e⟩

/-- The declarations that have Go types. -/
def declarations (f : Descriptor.File) : List Declaration := f.declarations (·.mapEntry)

def messagesOf (settings : Settings) (f : Descriptor.File) : List MessageRef :=
  (declarations f).filterMap fun
    | .message path _ => some (messageRef f (f.goPackageOf settings) path)
    | .enumeration _ _ => none

def enumsOf (settings : Settings) (f : Descriptor.File) : List EnumRef :=
  (declarations f).filterMap fun
    | .message _ _ => none
    | .enumeration parent e => some (enumRef f (f.goPackageOf settings) parent e)

/-! ### The index -/

def build (files : List Descriptor.File) (settings : Settings) : TypeIndex where
  messages := firstBy (·.fullName) (files.flatMap (messagesOf settings))
  enums := firstBy (·.fullName) (files.flatMap (enumsOf settings))
  files := files.map fun f => (f.name, f.goPackageOf settings)

/-- The message type with a name, which may start with a dot. -/
def resolve? (i : TypeIndex) (name : String) : Option MessageRef :=
  i.messages.find? (·.fullName == (Text.dropStart? "." name).getD name)

/-- The Go package of the first file with a name. -/
def goPackage? (i : TypeIndex) (file : String) : Option Go.Package := i.files.lookup file

/-- The message types of the Go package at a path, in the order of their names. -/
def messagesAt (i : TypeIndex) (path : String) : List MessageRef :=
  (i.messages.filter (·.goPackage.importPath == path)).mergeSort
    fun a b => decide (a.fullName ≤ b.fullName)

/-- The enums of the Go package at a path, in the order of their names. -/
def enumsAt (i : TypeIndex) (path : String) : List EnumRef :=
  (i.enums.filter (·.goPackage.importPath == path)).mergeSort
    fun a b => decide (a.fullName ≤ b.fullName)

/-- How many message types there are. -/
def size (i : TypeIndex) : Nat := i.messages.length

def isEmpty (i : TypeIndex) : Bool := i.messages.isEmpty

end TypeIndex

end GoBindings

/-
  GoBindings/Pool/Link.lean
  =========================
  **Resolving the references of a file.**

  Linking a file resolves the types of its fields, the messages that its
  extensions extend, and the input and output of its methods. A field that names
  its type has the type of that name, whatever else it says, except that a message
  is carried as a group where the field says so.
-/
import GoBindings.Pool.Linked
import GoBindings.Pool.Resolve

namespace GoBindings.Descriptor

/-! ### Fields -/

/-- Whether something is a type that fields can have by name. -/
def isFieldType (e : Entity) : Bool := e == .message || e == .enumeration

/-- The type of a field, if it can be found. -/
def Field.kind? (s : Surroundings) (fullName : String) (f : Field) : Option Linked.Kind :=
  if f.typeName.isEmpty then
    match f.type with
    | .scalar type => some (.scalar type)
    | _ => none
  else
    (s.resolve? isFieldType fullName f.typeName).map fun d =>
      if d.entity == .enumeration then .enumeration d.name
      else if f.type == .group then .group d.name
      else .message d.name

/-- Whether setting a field to nothing is told from not setting it. -/
def Field.hasPresence (isProto3 : Bool) (kind : Linked.Kind) (f : Field) : Bool :=
  f.explicitlyOptional || f.oneof.isSome || (!f.repeated && (kind.message?.isSome || !isProto3))

/-- The numbers of the fields that share a field's oneof. -/
def Message.rivals (m : Message) (f : Field) : List Nat :=
  match f.oneof with
  | none => []
  | some _ =>
    (m.fields.filter fun g => g.oneof == f.oneof && g.number != f.number).map (·.number.toNat)

/-- Whether the values of a field are written together: what the field says, or else
    what the language does. -/
def Field.isPacked (isProto3 : Bool) (kind : Linked.Kind) (f : Field) : Bool :=
  f.repeated && kind.isPackable && f.packed.getD isProto3

/-- A field declared in a scope; its own full name is the scope of its references. -/
def Field.link? (s : Surroundings) (isProto3 : Bool) (scope : String) (rivals : List Nat)
    (f : Field) : Option Linked.Field := do
  let kind ← f.kind? s (qualify scope f.name)
  some ⟨f.name, f.number, kind, f.repeated, f.isPacked isProto3 kind,
    f.hasPresence isProto3 kind, rivals, f.defaultValue⟩

/-- The message that an extension extends. -/
def Field.extended? (s : Surroundings) (scope : String) (f : Field) : Option String :=
  s.message? (qualify scope f.name) (f.extendee.getD "")

/-- An extension. One that holds one value is always told from one that is not set. -/
def Field.linkExtension? (s : Surroundings) (isProto3 : Bool) (scope : String) (f : Field) :
    Option Linked.Extension := do
  let extendee ← f.extended? s scope
  let field ← f.link? s isProto3 scope []
  some ⟨qualify scope f.name, extendee, { field with hasPresence := !f.repeated }⟩

/-! ### Messages, services, files -/

def Message.link? (s : Surroundings) (isProto3 : Bool) (fullName : String) (m : Message) :
    Option Linked.MessageType := do
  let fields ← m.fields.mapM fun f => f.link? s isProto3 fullName (m.rivals f)
  some ⟨fullName, fields, m.extensionRanges.map fun r => (r.start, r.stop), m.reservedRanges,
    m.mapEntry⟩

def Enum.linked (scope : String) (e : Enum) : Linked.EnumType :=
  ⟨qualify scope e.name, e.values.map fun v => (v.name, v.number)⟩

/-- A method whose input and output are messages that can be found. -/
def Method.link? (s : Surroundings) (service : String) (m : Method) : Option Linked.Method := do
  let _ ← s.message? (qualify service m.name) m.inputType
  let _ ← s.message? (qualify service m.name) m.outputType
  some ⟨m.name, m.options⟩

def Service.link? (s : Surroundings) (fullName : String) (v : Service) :
    Option Linked.Service := do
  let methods ← v.methods.mapM (Method.link? s fullName)
  some ⟨fullName, methods, v.options⟩

/-- The dependencies at the positions of public ones. -/
def passedOn (dependencies : List String) (positions : List Int) : List String :=
  (dependencies.zipIdx.filter fun d => positions.contains (d.2 : Int)).map (·.1)

/-- The messages that the extensions of a file extend, as far as they can be found. -/
def File.extendedTypes (s : Surroundings) (f : File) : List (Option String) :=
  f.allExtensions.map fun (scope, x) => x.extended? s scope

/-- The file with all its references resolved, if all can be. -/
def File.link? (s : Surroundings) (f : File) : Option Linked.File := do
  let messages ← f.messageTypes.mapM fun (fullName, m) => m.link? s f.isProto3 fullName
  let extensions ← f.allExtensions.mapM fun (scope, x) => x.linkExtension? s f.isProto3 scope
  let services ← f.services.mapM fun v => v.link? s (qualify f.package v.name)
  some ⟨f.name, f.package, passedOn f.dependencies f.publicDependencies, f.definitions,
    messages, f.allEnums.map (fun (scope, e) => e.linked scope), extensions, services⟩

end GoBindings.Descriptor

/-
  GoBindings/Pool/Override.lean
  =============================
  **Runtime names chosen in the source files.**

  Two extensions let a source file choose names: one of the options of a method,
  one of the options of a service. Each holds a message whose field `name` is the
  chosen name. The pool says how to read them, wherever they are declared and in
  whatever order the files came. An empty name counts as none.
-/
import GoBindings.Pool.Add

namespace GoBindings

/-- The extension of method options that chooses the name of an operation. -/
def operationExtension : String := "nexus.temporal.v1.operation"

/-- The extension of service options that chooses the name of a service. -/
def serviceExtension : String := "nexus.temporal.v1.service"

namespace Pool

/-- The text of the field `name` of a message of a type. -/
def nameIn? (t : Types) (type : String) (r : Record) : Option String := do
  let m ← t.message? type
  let f ← m.fields.find? (·.name == "name")
  if f.kind = .scalar .string then
    match t.valueIn r f with
    | .scalar (.bytes content) => Text.ofUtf8? content
    | _ => none
  else none

/-- The name that options of a type choose through the field with a number, if that
    holds a message and they choose one. -/
def chosenName? (p : Pool) (number : Nat) (type : String) (options : List UInt8) :
    Option String := do
  let t := p.typesFor type
  let r ← t.read? type options
  let f ← t.field? type number
  let inner ← f.kind.message?
  match r.value? number with
  | some (.message fields) => (nameIn? t inner fields).filter fun name => !name.isEmpty
  | _ => none

end Pool

/-- The pool of a run, and the files that it leaves out. -/
structure CustomOptions where
  pool : Pool
  skipped : List (String × Rejection)
deriving Repr

namespace CustomOptions

/-- No files, hence no chosen names. -/
def none : CustomOptions := ⟨Pool.empty, []⟩

instance : Inhabited CustomOptions := ⟨none⟩

/-- Adds a file, or notes that it is left out. -/
def add (o : CustomOptions) (f : Descriptor.File) : CustomOptions :=
  match o.pool.add f with
  | (p, .none) => ⟨p, o.skipped⟩
  | (p, .some r) => ⟨p, o.skipped ++ [(f.name, r)]⟩

def build (files : List Descriptor.File) : CustomOptions := files.foldl add none

/-- Why the options of a file are unavailable, if they are. -/
def skipped? (o : CustomOptions) (file : String) : Option Rejection := o.skipped.lookup file

/-- The runtime name chosen for a service. -/
def serviceName? (o : CustomOptions) (service : String) : Option String := do
  let ext ← o.pool.extension? serviceExtension
  let s ← o.pool.service? service
  o.pool.chosenName? ext.field.number.toNat "google.protobuf.ServiceOptions" s.options

/-- The runtime name chosen for a method of a service. -/
def operationName? (o : CustomOptions) (service method : String) : Option String := do
  let ext ← o.pool.extension? operationExtension
  let s ← o.pool.service? service
  let m ← s.methods.find? (·.name == method)
  o.pool.chosenName? ext.field.number.toNat "google.protobuf.MethodOptions" m.options

end CustomOptions

end GoBindings

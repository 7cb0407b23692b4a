/-
  GoBindings/Service/Names.lean
  =============================
  **The names that a service gives rise to.**

  From the names of a service and its methods come the Go identifiers of the
  generated code; from the template, or the name chosen in the source, comes the
  name of each operation at run time. Within a service no runtime name may occur
  twice, nor may a Go method of the client or the handler.
-/
import GoBindings.Go.CamelCase
import GoBindings.Log.Traced
import GoBindings.Service.Basic
import GoBindings.Settings.Basic

namespace GoBindings

/-- The package-level identifiers of a service. -/
structure ServiceNames where
  /-- What the other identifiers are built from. -/
  goName : String
  serviceNameConst : String
  client : String
  clientConstructor : String
  handler : String
  register : String
deriving DecidableEq, Repr

def ServiceNames.ofName (name : String) : ServiceNames :=
  let goName := Go.camelCase name
  { goName
    serviceNameConst := goName ++ "ServiceName"
    client := goName ++ "NexusClient"
    clientConstructor := "New" ++ goName ++ "NexusClient"
    handler := goName ++ "NexusServiceHandler"
    register := "Register" ++ goName ++ "NexusServiceHandler" }

/-- The identifiers of an operation, and its name at run time. -/
structure OperationNames where
  /-- Of the handler. -/
  handlerMethod : String
  /-- Of the client, waiting for the result. -/
  execute : String
  /-- Of the client, giving a future of the result. -/
  start : String
  operationNameConst : String
  operationName : String
deriving DecidableEq, Repr

def OperationNames.ofMethod (service : ServiceNames) (method operationName : String) :
    OperationNames :=
  let goMethod := Go.camelCase method
  { handlerMethod := goMethod
    execute := "Execute" ++ goMethod
    start := "Start" ++ goMethod
    operationNameConst := service.goName ++ goMethod ++ "OperationName"
    operationName }

structure NamedOperation where
  operation : Operation
  names : OperationNames
deriving DecidableEq, Repr

structure NamedService where
  service : Service
  names : ServiceNames
  operations : List NamedOperation
deriving DecidableEq, Repr

namespace Service

/-- What the template can refer to for an operation. -/
def templateContext (s : Service) (op : Operation) : Template.Context :=
  ⟨op.methodName, s.name, s.fullName, s.package⟩

/-- The runtime name of an operation: the chosen one, else what the template gives. -/
def operationName (s : Service) (settings : Settings) (op : Operation) : String :=
  op.chosenName.getD (settings.template.render (s.templateContext op))

/-- Who lays claim to the identifiers of an operation. -/
def operationOrigin (s : Service) (op : Operation) : String :=
  "operation " ++ s.fullName ++ "." ++ op.methodName

/-- A Go method, by the type that has it and its name. -/
abbrev GoMethod := String × String

/-- Adds a Go method that no operation has yet. The list holds those taken, each
    with the operation that took it. -/
def claimMethod (taken : List (GoMethod × String)) (method : GoMethod) (origin : String) :
    Except Fault (List (GoMethod × String)) :=
  match taken.lookup method with
  | some first => .error (.identifierCollision (method.1 ++ "." ++ method.2) first origin)
  | none => .ok ((method, origin) :: taken)

/-- The names taken by the operations of a service so far. -/
structure Taken where
  /-- Runtime names with the methods that have them. -/
  runtime : List (String × String) := []
  methods : List (GoMethod × String) := []

/-- Names an operation, if that repeats no name. -/
def nameOperation (s : Service) (settings : Settings) (taken : Taken) (op : Operation) :
    Except Fault (NamedOperation × Taken) := do
  let names := ServiceNames.ofName s.name
  let runtimeName := s.operationName settings op
  if runtimeName.isEmpty then
    .error (.invalidOption Template.key
      (Text.quoted settings.template.source ++ " renders an empty operation name for "
        ++ s.fullName ++ "." ++ op.methodName))
  match taken.runtime.lookup runtimeName with
  | some first => .error (.duplicateOperationName s.fullName runtimeName first op.methodName)
  | none =>
    let opNames := OperationNames.ofMethod names op.methodName runtimeName
    let origin := s.operationOrigin op
    let methods ← claimMethod taken.methods (names.client, opNames.execute) origin
    let methods ← claimMethod methods (names.client, opNames.start) origin
    let methods ← claimMethod methods (names.handler, opNames.handlerMethod) origin
    .ok (⟨op, opNames⟩, ⟨(runtimeName, op.methodName) :: taken.runtime, methods⟩)

/-- Names operations one after the other. -/
def nameOperations (s : Service) (settings : Settings) (taken : Taken) :
    List Operation → Traced (List NamedOperation)
  | [] => pure []
  | op :: rest => do
    let (named, taken) ← Traced.ofExcept (s.nameOperation settings taken op)
    Traced.report (.namedOperation s.fullName op.methodName named.names.operationName)
    let more ← s.nameOperations settings taken rest
    pure (named :: more)

/-- The service with all its names. -/
def resolve (s : Service) (settings : Settings) : Traced NamedService := do
  let operations ← s.nameOperations settings {} s.operations
  pure ⟨s, ServiceNames.ofName s.name, operations⟩

end Service

end GoBindings

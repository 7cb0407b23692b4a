/-
  GoBindings/Service/Collect.lean
  ===============================
  **The services of a source file.**

  Services are taken in the order of declaration, with their methods. Whatever
  makes a service unusable makes the file unusable: a missing name or type, two
  methods of one name, or a method that streams. The first such thing, service by
  service and method by method, is the fault.
-/
import GoBindings.Descriptor.Basic
import GoBindings.Log.Traced
import GoBindings.Pool.Override
import GoBindings.Service.Basic

namespace GoBindings

open Descriptor (qualify)

namespace Descriptor

/-- How a method streams, if it does. -/
def Method.streaming? (m : Method) : Option Streaming :=
  match m.clientStreaming, m.serverStreaming with
  | false, false => none
  | true, false => some .client
  | false, true => some .server
  | true, true => some .bidirectional

end Descriptor

namespace Service

/-- A text that has to be there. -/
def required (value what : String) : Except Fault String :=
  if value.isEmpty then .error (.malformedDescriptor what) else .ok value

/-- The operation for the method at an index; `seen` holds the names of the methods
    before it. -/
def operationOf (custom : CustomOptions) (service : String) (index : Nat) (seen : List String)
    (m : Descriptor.Method) : Except Fault Operation := do
  let name ← required m.name
    ("method #" ++ toString index ++ " of service " ++ service ++ " has no name")
  let qualified := service ++ "." ++ name
  if seen.contains name then
    .error (.malformedDescriptor ("method " ++ qualified ++ " is declared more than once"))
  let input ← required m.inputType ("method " ++ qualified ++ " has no input type")
  let output ← required m.outputType ("method " ++ qualified ++ " has no output type")
  match m.streaming? with
  | some kind => .error (.unsupportedMethodKind qualified kind)
  | none => .ok ⟨name, input, output, custom.operationName? service name⟩

/-- The operations for methods from an index on. -/
def operationsFrom (custom : CustomOptions) (service : String) (index : Nat)
    (seen : List String) : List Descriptor.Method → Except Fault (List Operation)
  | [] => .ok []
  | m :: rest => do
    let op ← operationOf custom service index seen m
    let ops ← operationsFrom custom service (index + 1) (op.methodName :: seen) rest
    .ok (op :: ops)

/-- The service at an index of a file. -/
def ofDeclaration (custom : CustomOptions) (f : Descriptor.File) (index : Nat)
    (s : Descriptor.Service) : Except Fault Service := do
  let name ← required s.name
    ("service #" ++ toString index ++ " in " ++ f.name ++ " has no name")
  let fullName := qualify f.package name
  let operations ← operationsFrom custom fullName 0 [] s.methods
  .ok ⟨fullName, name, f.package, f.name, custom.serviceName? fullName, operations⟩

/-- Reports a service that has nothing to call. -/
def reportEmpty (s : Service) : Traced Unit :=
  if s.operations.isEmpty then Traced.report (.emptyService s.fullName) else pure ()

/-- The services from an index on. -/
def collectFrom (custom : CustomOptions) (f : Descriptor.File) (index : Nat) :
    List Descriptor.Service → Traced (List Service)
  | [] => pure []
  | d :: rest => do
    let s ← Traced.ofExcept (ofDeclaration custom f index d)
    reportEmpty s
    let more ← collectFrom custom f (index + 1) rest
    pure (s :: more)

/-- Reports that names chosen in a file cannot be read. -/
def reportUnavailable (custom : CustomOptions) (f : Descriptor.File) : Traced Unit :=
  match f.services.isEmpty, custom.skipped? f.name with
  | false, some reason => Traced.report (.optionsUnavailable f.name reason)
  | _, _ => pure ()

/-- The services that a file declares. -/
def collect (custom : CustomOptions) (f : Descriptor.File) : Traced (List Service) := do
  reportUnavailable custom f
  let services ← collectFrom custom f 0 f.services
  Traced.report (.collectedServices f.name services.length)
  pure services

end Service

end GoBindings

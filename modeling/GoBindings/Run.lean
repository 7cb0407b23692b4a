/-
  GoBindings/Run.lean
  ===================
  **A run: from a request to a response.**

  A request whose parameter is wrong is answered with that fault, and one with
  declarations that cannot be read ends the run. Otherwise the targets are dealt
  with in order. Each one gives a file, gives nothing because it declares no
  services, or fails; a failure leaves no trace in the registry. The response has
  the files and, for each failure, a line of text.
-/
import GoBindings.Descriptor.Read
import GoBindings.Document.Render
import GoBindings.Exchange.Request
import GoBindings.Exchange.Response
import GoBindings.Registry
import GoBindings.Service.Collect
import GoBindings.Settings.Parameter
import GoBindings.TypeMapper

namespace GoBindings

/-- The version that generated files are stamped with. -/
def generatorVersion : String := "0.1.0"

/-- What stays the same throughout a run. -/
structure Environment where
  files : List Descriptor.File
  index : TypeIndex
  custom : CustomOptions
  settings : Settings
  compilerVersion : Option String

/-- A generated file. -/
structure OutputFile where
  name : String
  content : String
deriving DecidableEq, Repr

namespace Environment

/-- The environment for declarations and settings. -/
def build (files : List Descriptor.File) (settings : Settings)
    (version : Option CompilerVersion) : Environment where
  files
  index := TypeIndex.build files settings
  custom := CustomOptions.build files
  settings
  compilerVersion := version.map (·.text)

/-! ### One file -/

/-- The operations of a service with their types mapped, and the imports so far. -/
def bindOperations (mapper : TypeMapper) (s : Service) :
    Go.Imports → List NamedOperation → Traced (List BoundOperation × Go.Imports)
  | imports, [] => pure ([], imports)
  | imports, op :: rest => do
    let referrer := s.fullName ++ "." ++ op.operation.methodName
    let (input, imports) ← mapper.map imports op.operation.inputType referrer
    let (output, imports) ← mapper.map imports op.operation.outputType referrer
    let (more, imports) ← bindOperations mapper s imports rest
    pure (⟨op.operation.methodName, op.names, input.expr, output.expr⟩ :: more, imports)

/-- The services with their types mapped, and the imports that they need. -/
def bindServices (mapper : TypeMapper) :
    Go.Imports → List NamedService → Traced (List BoundService × Go.Imports)
  | imports, [] => pure ([], imports)
  | imports, s :: rest => do
    let (operations, imports) ← bindOperations mapper s.service imports s.operations
    Traced.report (.resolvedService s.service.fullName operations.length)
    let (more, imports) ← bindServices mapper imports rest
    pure (⟨s.service, s.names, operations⟩ :: more, imports)

/-- Names services one after the other. -/
def nameServices (settings : Settings) : List Service → Traced (List NamedService)
  | [] => pure []
  | s :: rest => do
    let named ← s.resolve settings
    let more ← nameServices settings rest
    pure (named :: more)

/-- The Go package of the messages of a file. -/
def sourcePackage (env : Environment) (f : Descriptor.File) : Go.Package :=
  (env.index.goPackage? f.name).getD (f.goPackageOf env.settings)

/-- The Go package that output for a file belongs to. -/
def outputPackage (env : Environment) (f : Descriptor.File) : Go.Package :=
  (env.sourcePackage f).renamed env.settings.package

/-- The file generated for services that there are, and the registry with their claims. -/
def generateServices (env : Environment) (registry : Registry) (f : Descriptor.File)
    (services : List Service) : Traced (OutputFile × Registry) := do
  let output := env.outputPackage f
  let name ← Traced.ofExcept
    (Placement.outputName f.name (env.sourcePackage f) output env.settings)
  let named ← nameServices env.settings services
  let claimed ← Traced.ofExcept
    ((registry.seed env.index output.importPath).registerAll output.importPath named)
  let (bound, imports) ← bindServices ⟨env.index, output⟩ Go.Imports.framework named
  let document : Document :=
    ⟨f.name, output.name, generatorVersion, env.compilerVersion, imports, bound⟩
  pure (⟨name, document.render⟩, claimed)

/-- The file generated for a source file, if it declares services, and the registry after it. -/
def generateFile (env : Environment) (registry : Registry) (f : Descriptor.File) :
    Traced (Option OutputFile × Registry) := do
  let services ← Service.collect env.custom f
  if services.isEmpty then
    Traced.report (.noServices f.name)
    pure (none, registry)
  else
    let (output, claimed) ← env.generateServices registry f services
    pure (some output, claimed)

/-! ### The targets -/

/-- How a target ended. -/
inductive Outcome where
  | generated (file : OutputFile)
  | nothing
  | failed (fault : Fault)
deriving DecidableEq, Repr

/-- A target that has been dealt with. -/
structure Settled where
  target : String
  events : List Event
  outcome : Outcome

/-- Generates for the first file with the target's name. -/
def attempt (env : Environment) (registry : Registry) (target : String) :
    Traced (Option OutputFile × Registry) :=
  match env.files.find? (·.name == target) with
  | some f => env.generateFile registry f
  | none =>
    Traced.fault
      (.malformedDescriptor (target ++ " is listed for generation but missing from proto_file"))

/-- Deals with a target. The registry changes only if that succeeds. -/
def settle (env : Environment) (registry : Registry) (target : String) : Settled × Registry :=
  let tried := env.attempt registry target
  match tried.outcome with
  | .ok (some output, claimed) =>
    (⟨target, tried.events ++ [.generatedFile target output.name], .generated output⟩, claimed)
  | .ok (none, claimed) => (⟨target, tried.events, .nothing⟩, claimed)
  | .error fault =>
    (⟨target, tried.events ++ [.generationFailed target fault], .failed fault⟩, registry)

/-- Deals with targets one after the other. -/
def settleAll (env : Environment) (registry : Registry) : List String → List Settled
  | [] => []
  | target :: rest =>
    (env.settle registry target).1 :: env.settleAll (env.settle registry target).2 rest

end Environment

/-! ### The response -/

namespace Response

open Environment (Outcome Settled)

/-- The features of the language that generated code copes with: optional fields. -/
def features : Nat := 1

def failed (fault : Fault) : Response := ⟨some fault.message, some features, []⟩

def fileOf? (s : Settled) : Option ResponseFile :=
  match s.outcome with
  | .generated file => some ⟨some file.name, none, some file.content⟩
  | _ => none

/-- The line about a target that failed. -/
def failureLine? (s : Settled) : Option String :=
  match s.outcome with
  | .failed fault => some (s.target ++ ": " ++ fault.message)
  | _ => none

/-- The lines about failures as one text, if there are any. -/
def failureText : List String → Option String
  | [] => none
  | failures => some ("\n".intercalate failures)

def ofTargets (settled : List Settled) : Response where
  error := failureText (settled.filterMap failureLine?)
  supportedFeatures := some features
  files := settled.filterMap fileOf?

end Response

/-! ### The run -/

/-- The declarations of all files. -/
def readFiles (files : List (List UInt8)) : Except Fault (List Descriptor.File) :=
  match files.mapM Descriptor.File.read? with
  | some declared => .ok declared
  | none => .error .undecodable

/-- The response to declarations and settings. -/
def Environment.respond (env : Environment) (targets : List String) : Traced Response :=
  let settled := env.settleAll Registry.empty targets
  ⟨env.custom.skipped.map (fun (file, reason) => Event.couldNotIndex file reason)
      ++ Event.decodedRequest env.files.length env.index.size targets.length
      :: settled.flatMap (·.events),
    .ok (Response.ofTargets settled)⟩

/-- The response to a request. -/
def generate (request : Request) : Traced Response :=
  match Settings.parse request.parameter with
  | .error fault => ⟨[.invalidParameter fault], .ok (Response.failed fault)⟩
  | .ok settings => do
    let files ← Traced.ofExcept (readFiles request.files)
    (Environment.build files settings request.compilerVersion).respond request.targets

/-- The response to a request as bytes. -/
def generateFromBytes (bytes : List UInt8) : Traced Response := do
  let request ← Traced.ofExcept (Request.decode bytes)
  generate request

end GoBindings

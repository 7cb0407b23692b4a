/-
  GoBindings/Log/Event.lean
  =========================
  **What a run reports while it works.**

  Events are kept as data: what happened, to which names. The level, the part of
  the program that reports, the text and the named fields are functions of that.
  Fields keep the order in which a log line shows them.
-/
import GoBindings.Fault
import GoBindings.Pool.Add

namespace GoBindings

/-- How important an event is, the most important first. -/
inductive Level where
  | error
  | warn
  | info
  | debug
  | trace
deriving DecidableEq, Repr

namespace Level

def name : Level → String
  | error => "ERROR"
  | warn => "WARN"
  | info => "INFO"
  | debug => "DEBUG"
  | trace => "TRACE"

/-- Larger for the less important. -/
def rank : Level → Nat
  | error => 1
  | warn => 2
  | info => 3
  | debug => 4
  | trace => 5

end Level

/-- The value of a field of an event. -/
inductive FieldValue where
  /-- A text shown as it is. -/
  | shown (s : String)
  /-- A text shown between quotes. -/
  | quoted (s : String)
  | count (n : Nat)
deriving DecidableEq, Repr

inductive Event where
  | invalidParameter (fault : Fault)
  | couldNotIndex (file : String) (reason : Rejection)
  | decodedRequest (files messages targets : Nat)
  | optionsUnavailable (file : String) (reason : Rejection)
  | emptyService (service : String)
  | collectedServices (file : String) (services : Nat)
  | namedOperation (service method operationName : String)
  | mappedType (typeName importPath qualifier : String)
  | resolvedService (service : String) (operations : Nat)
  | generatedFile (file output : String)
  | noServices (file : String)
  | generationFailed (file : String) (fault : Fault)
deriving DecidableEq, Repr

namespace Event

def level : Event → Level
  | invalidParameter _ | generationFailed _ _ => .error
  | optionsUnavailable _ _ | emptyService _ => .warn
  | _ => .debug

/-- The part of the program that an event is filtered by. -/
def target : Event → String
  | couldNotIndex _ _ | optionsUnavailable _ _ | emptyService _ | collectedServices _ _ =>
    "nexus_temporal_codegen::descriptor"
  | namedOperation _ _ _ => "nexus_temporal_codegen::naming"
  | mappedType _ _ _ => "nexus_temporal_codegen::types"
  | _ => "nexus_temporal_codegen::plugin"

def text : Event → String
  | invalidParameter _ => "Invalid plugin parameter"
  | couldNotIndex _ _ => "Could not index file for custom options"
  | decodedRequest _ _ _ => "Decoded CodeGeneratorRequest"
  | optionsUnavailable _ _ =>
    "Custom Nexus options are unavailable for this file; using derived names"
  | emptyService _ => "Service declares no methods; generating an empty client and handler"
  | collectedServices _ _ => "Collected services"
  | namedOperation _ _ _ => "Resolved operation names"
  | mappedType _ _ _ => "Mapped cross-package type"
  | resolvedService _ _ => "Resolved service"
  | generatedFile _ _ => "Generated file"
  | noServices _ => "No services, skipping"
  | generationFailed _ _ => "Generation failed"

def fields : Event → List (String × FieldValue)
  | invalidParameter fault => [("code", .quoted fault.code), ("error", .shown fault.message)]
  | couldNotIndex file reason => [("file", .shown file), ("error", .shown reason.message)]
  | decodedRequest files messages targets =>
    [("files", .count files), ("messages", .count messages), ("targets", .count targets)]
  | optionsUnavailable file reason => [("file", .shown file), ("reason", .shown reason.message)]
  | emptyService service => [("service", .shown service)]
  | collectedServices file services => [("file", .shown file), ("services", .count services)]
  | namedOperation service method operationName =>
    [("service", .shown service), ("method", .shown method),
      ("operation_name", .shown operationName)]
  | mappedType typeName importPath qualifier =>
    [("type_name", .shown typeName), ("import_path", .shown importPath),
      ("alias", .shown qualifier)]
  | resolvedService service operations =>
    [("service", .shown service), ("operations", .count operations)]
  | generatedFile file output => [("file", .shown file), ("output", .quoted output)]
  | noServices file => [("file", .shown file)]
  | generationFailed file fault =>
    [("file", .shown file), ("code", .quoted fault.code), ("error", .shown fault.message)]

end Event

end GoBindings

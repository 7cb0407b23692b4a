/-
  GoBindings/Document/Render.lean
  ===============================
  **The text of a generated Go file.**

  The text is a list of lines, put together from parts: the header, and for each
  service its constants, its client, its handler and its registration. Services
  and operations keep their order and imports are in the order of their paths, so
  equal documents have equal text.
-/
import GoBindings.Document.Basic
import GoBindings.Go.Literal

namespace GoBindings.Document

/-! ### Header -/

def versionLines (d : Document) : List String :=
  ["// \t" ++ generatorName ++ " v" ++ d.generatorVersion]
    ++ (d.compilerVersion.map fun v => "// \tprotoc " ++ v).toList

def importLine (entry : String × String) : String :=
  "\t" ++ entry.2 ++ " " ++ Go.literal entry.1

def headerLines (d : Document) : List String :=
  ["// Code generated by " ++ generatorName ++ ". DO NOT EDIT.", "// versions:"]
    ++ d.versionLines
    ++ ["// source: " ++ d.source, "", "package " ++ d.packageName, "", "import ("]
    ++ d.imports.sorted.map importLine
    ++ [")"]

/-! ### Constants -/

def constantLine (name value : String) : String := "const " ++ name ++ " = " ++ Go.literal value

def serviceConstant (s : BoundService) : List String :=
  ["",
    "// " ++ s.names.serviceNameConst ++ " is the Nexus service name of "
      ++ s.service.fullName ++ ".",
    constantLine s.names.serviceNameConst s.service.runtimeName]

def operationConstant (s : BoundService) (op : BoundOperation) : List String :=
  ["",
    "// " ++ op.names.operationNameConst ++ " is the Nexus operation name of "
      ++ s.service.fullName ++ "." ++ op.methodName ++ ".",
    constantLine op.names.operationNameConst op.names.operationName]

/-! ### Client -/

def clientType (fw : Framework) (s : BoundService) : List String :=
  ["",
    "// " ++ s.names.client ++ " invokes " ++ s.service.fullName
      ++ " operations from workflow code.",
    "type " ++ s.names.client ++ " struct \x7b",
    "\tclient " ++ fw.workflow ++ ".NexusClient",
    "\x7d",
    "",
    "// " ++ s.names.clientConstructor ++ " creates a " ++ s.names.client
      ++ " that calls the given Nexus endpoint.",
    "func " ++ s.names.clientConstructor ++ "(endpoint string) *" ++ s.names.client ++ " \x7b",
    "\treturn &" ++ s.names.client ++ "\x7bclient: " ++ fw.workflow ++ ".NewNexusClient(endpoint, "
      ++ s.names.serviceNameConst ++ ")\x7d",
    "\x7d"]

/-- The parameters of both client methods of an operation. -/
def parameters (fw : Framework) (op : BoundOperation) : String :=
  "ctx " ++ fw.workflow ++ ".Context, input *" ++ op.input.text ++ ", options " ++ fw.workflow
    ++ ".NexusOperationOptions"

def startMethod (fw : Framework) (s : BoundService) (op : BoundOperation) : List String :=
  ["",
    "// " ++ op.names.start ++ " starts the " ++ op.methodName
      ++ " operation and returns a future for its result.",
    "func (c *" ++ s.names.client ++ ") " ++ op.names.start ++ "(" ++ parameters fw op ++ ") "
      ++ fw.workflow ++ ".NexusOperationFuture \x7b",
    "\treturn c.client.ExecuteOperation(ctx, " ++ op.names.operationNameConst
      ++ ", input, options)",
    "\x7d"]

def executeMethod (fw : Framework) (s : BoundService) (op : BoundOperation) : List String :=
  ["",
    "// " ++ op.names.execute ++ " runs the " ++ op.methodName
      ++ " operation and waits for its result.",
    "func (c *" ++ s.names.client ++ ") " ++ op.names.execute ++ "(" ++ parameters fw op ++ ") (*"
      ++ op.output.text ++ ", error) \x7b",
    "\toutput := &" ++ op.output.text ++ "\x7b\x7d",
    "\tif err := c." ++ op.names.start
      ++ "(ctx, input, options).Get(ctx, output); err != nil \x7b",
    "\t\treturn nil, err",
    "\t\x7d",
    "\treturn output, nil",
    "\x7d"]

def clientLines (fw : Framework) (s : BoundService) : List String :=
  clientType fw s ++ s.operations.flatMap fun op => startMethod fw s op ++ executeMethod fw s op

/-! ### Handler -/

def handlerMethod (fw : Framework) (op : BoundOperation) : List String :=
  ["\t// " ++ op.names.handlerMethod ++ " returns the " ++ op.methodName
      ++ " operation registered under name.",
    "\t" ++ op.names.handlerMethod ++ "(name string) " ++ fw.nexus ++ ".Operation[*"
      ++ op.input.text ++ ", *" ++ op.output.text ++ "]"]

/-- Blocks of lines with an empty line between neighbours. -/
def spaced : List (List String) → List String
  | [] => []
  | [block] => block
  | block :: rest => block ++ "" :: spaced rest

def handlerLines (fw : Framework) (s : BoundService) : List String :=
  ["",
    "// " ++ s.names.handler ++ " provides the implementation of each " ++ s.service.fullName
      ++ " operation.",
    "type " ++ s.names.handler ++ " interface \x7b"]
    ++ spaced (s.operations.map (handlerMethod fw))
    ++ ["\x7d"]

/-! ### Registration -/

def registrationLine (op : BoundOperation) : String :=
  "\t\thandler." ++ op.names.handlerMethod ++ "(" ++ op.names.operationNameConst ++ "),"

def registrationCall (s : BoundService) : List String :=
  if s.operations.isEmpty then []
  else
    ["\tif err := service.Register("] ++ s.operations.map registrationLine
      ++ ["\t); err != nil \x7b", "\t\treturn err", "\t\x7d"]

def registerLines (fw : Framework) (s : BoundService) : List String :=
  ["",
    "// " ++ s.names.register ++ " registers every " ++ s.service.fullName
      ++ " operation of handler with registry.",
    "func " ++ s.names.register ++ "(registry " ++ fw.worker ++ ".NexusServiceRegistry, handler "
      ++ s.names.handler ++ ") error \x7b",
    "\tservice := " ++ fw.nexus ++ ".NewService(" ++ s.names.serviceNameConst ++ ")"]
    ++ registrationCall s
    ++ ["\tregistry.RegisterNexusService(service)", "\treturn nil", "\x7d"]

/-! ### Everything -/

def serviceLines (fw : Framework) (s : BoundService) : List String :=
  serviceConstant s ++ s.operations.flatMap (operationConstant s) ++ clientLines fw s
    ++ handlerLines fw s ++ registerLines fw s

def lines (d : Document) : List String :=
  d.headerLines ++ d.services.flatMap (serviceLines d.framework)

/-- The text of the file: every line ends in a line break. -/
def render (d : Document) : String := String.join (d.lines.map (· ++ "\n"))

end GoBindings.Document

/-
  GoBindings/Document/Basic.lean
  ==============================
  **What a generated Go file says.**

  A document is a header, the imports, and the services with their operations,
  everything named and every type mapped. It determines the text of the file.
-/
import GoBindings.Go.Imports
import GoBindings.Go.TypeExpr
import GoBindings.Service.Names

namespace GoBindings

/-- An operation with its identifiers and the types that it takes and gives. -/
structure BoundOperation where
  methodName : String
  names : OperationNames
  input : Go.TypeExpr
  output : Go.TypeExpr
deriving DecidableEq, Repr

/-- A service with its identifiers and operations. -/
structure BoundService where
  service : Service
  names : ServiceNames
  operations : List BoundOperation
deriving DecidableEq, Repr

structure Document where
  /-- The source file. -/
  source : String
  packageName : String
  generatorVersion : String
  /-- The version of the compiler that asked for the file, if it told. -/
  compilerVersion : Option String
  imports : Go.Imports
  services : List BoundService
deriving DecidableEq, Repr

namespace Document

/-- The name under which the generator signs its output. -/
def generatorName : String := "protoc-gen-go_nexus-temporal"

/-- The aliases of the packages that every document uses. -/
structure Framework where
  nexus : String
  worker : String
  workflow : String
deriving DecidableEq, Repr

def framework (d : Document) : Framework where
  nexus := (d.imports.alias? Go.nexusPath).getD "nexus"
  worker := (d.imports.alias? Go.workerPath).getD "worker"
  workflow := (d.imports.alias? Go.workflowPath).getD "workflow"

end Document

end GoBindings

/-
  GoBindings/Service/Basic.lean
  =============================
  **Services and their operations.**

  What is generated from: the services of one source file, each with its methods
  as operations that take one message and give one.
-/
namespace GoBindings

/-- A method as an operation. -/
structure Operation where
  methodName : String
  /-- The message it takes, as the source names it. -/
  inputType : String
  /-- The message it gives, as the source names it. -/
  outputType : String
  /-- The runtime name that the source chooses. -/
  chosenName : Option String
deriving DecidableEq, Repr

structure Service where
  fullName : String
  name : String
  package : String
  file : String
  /-- The runtime name that the source chooses. -/
  chosenName : Option String
  /-- In the order of declaration. -/
  operations : List Operation
deriving DecidableEq, Repr

/-- The name that the service is called by at run time. -/
def Service.runtimeName (s : Service) : String := s.chosenName.getD s.fullName

end GoBindings

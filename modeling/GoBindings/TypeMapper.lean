/-
  GoBindings/TypeMapper.lean
  ==========================
  **Message types as a Go file writes them.**

  A type of the file's own package is written by its name; a type of another
  package needs that package imported, and is written behind its alias. Mapping a
  type thus gives an expression and the imports so far.
-/
import GoBindings.Go.Imports
import GoBindings.Go.TypeExpr
import GoBindings.Log.Traced
import GoBindings.TypeIndex

namespace GoBindings

/-- A message type and how it is written. -/
structure MappedType where
  message : MessageRef
  expr : Go.TypeExpr
deriving DecidableEq, Repr

/-- What types are mapped with: the types there are, and the package of the file. -/
structure TypeMapper where
  index : TypeIndex
  home : Go.Package
deriving Repr

namespace TypeMapper

/-- The expression for a known message type, and the imports that it needs. -/
def write (t : TypeMapper) (imports : Go.Imports) (m : MessageRef) :
    Traced (MappedType × Go.Imports) :=
  if m.goPackage.importPath = t.home.importPath then pure (⟨m, none, m.goIdent⟩, imports)
  else do
    let (qualifier, imports) := imports.add m.goPackage.importPath m.goPackage.name
    Traced.report (.mappedType m.fullName m.goPackage.importPath qualifier)
    pure (⟨m, some qualifier, m.goIdent⟩, imports)

/-- Maps the message type that `referrer` names. -/
def map (t : TypeMapper) (imports : Go.Imports) (typeName referrer : String) :
    Traced (MappedType × Go.Imports) :=
  match t.index.resolve? typeName with
  | some m => t.write imports m
  | none => Traced.fault (.unresolvableType typeName referrer)

end TypeMapper

end GoBindings

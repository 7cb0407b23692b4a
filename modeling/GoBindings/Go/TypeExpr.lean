/-
  GoBindings/Go/TypeExpr.lean
  ===========================
  **Go expressions for types.**

  A type of the package being generated is written by its name alone, one of
  another package with that package's alias in front.
-/
namespace GoBindings.Go

/-- A type as generated code writes it. -/
structure TypeExpr where
  qualifier : Option String
  ident : String
deriving DecidableEq, Repr

/-- The expression as text. -/
def TypeExpr.text (e : TypeExpr) : String :=
  match e.qualifier with
  | some q => q ++ "." ++ e.ident
  | none => e.ident

end GoBindings.Go

/-
  GoBindings/Go/Package.lean
  ==========================
  **Go packages.**

  A package has an import path and a name. A declaration gives both, as
  `path;name`, or the path alone, whose last element then gives the name. A
  file without a declaration belongs to the package of its directory.
-/
import GoBindings.Go.Identifier
import GoBindings.Text.Trim

namespace GoBindings.Go

/-- A package as other packages refer to it. -/
structure Package where
  importPath : String
  name : String
deriving DecidableEq, Repr

namespace Package

/-- The package at a path, named for the path's last element. -/
def atPath (path : String) : Package := ⟨path, sanitize (Text.afterLast '/' path)⟩

/-- The package that a declaration gives. An empty name counts as none. -/
def ofDeclaration (declaration : String) : Package :=
  match Text.cutFirst? ';' declaration with
  | none => atPath declaration
  | some (path, name) =>
    if (Text.trim name).isEmpty then atPath path else ⟨path, sanitize (Text.trim name)⟩

/-- The package for a source file that declares none: its directory, or its own
    name if it has no directory. -/
def ofSourceName (file : String) : Package :=
  match Text.cutLast? '/' file with
  | some (directory, _) =>
    if directory.isEmpty then atPath (Text.dropAllEnds ".proto" file) else atPath directory
  | none => atPath (Text.dropAllEnds ".proto" file)

/-- The package for output that is to have another name. Two names cannot share
    a directory, so a different name moves the output one directory down. -/
def renamed (p : Package) : Option String → Package
  | none => p
  | some name => if name = p.name then p else ⟨p.importPath ++ "/" ++ name, name⟩

end Package

end GoBindings.Go

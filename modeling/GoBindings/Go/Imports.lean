/-
  GoBindings/Go/Imports.lean
  ==========================
  **The import block of a Go file.**

  Each imported path has one alias, fixed when the path is first added. The
  alias is the package's name, or that name with the least number behind it
  that makes it differ from every alias so far and from the names of the
  parameters and variables in generated functions.
-/
namespace GoBindings.Go

/-! ### The packages that every generated file uses -/

def nexusPath : String := "github.com/nexus-rpc/sdk-go/nexus"
def workerPath : String := "go.temporal.io/sdk/worker"
def workflowPath : String := "go.temporal.io/sdk/workflow"

/-- Names of parameters and variables in generated functions, which no alias may hide. -/
def reservedLocals : List String :=
  ["c", "ctx", "endpoint", "err", "handler", "input", "name", "options", "output",
    "registry", "service"]

/-- Paths with their aliases, in the order in which they were added. -/
structure Imports where
  entries : List (String × String)
deriving DecidableEq, Repr

namespace Imports

/-- The alias of a path. -/
def alias? (i : Imports) (path : String) : Option String := i.entries.lookup path

/-- Names that a new alias must differ from. -/
def taken (i : Imports) : List String := reservedLocals ++ i.entries.map (·.2)

/-- The aliases that are tried for a package name, in order. -/
def candidate (name : String) : Nat → String
  | 0 => name
  | n + 1 => name ++ toString (n + 1)

/-- The first candidate that is not taken. The candidates differ, so among one
    more of them than there are taken names, one is free. -/
def freshAlias (taken : List String) (name : String) : String :=
  (((List.range (taken.length + 1)).map (candidate name)).find? (!taken.contains ·)).getD name

/-- Adds a path, and gives its alias. -/
def add (i : Imports) (path name : String) : String × Imports :=
  match i.alias? path with
  | some known => (known, i)
  | none =>
    let chosen := freshAlias i.taken name
    (chosen, ⟨i.entries ++ [(path, chosen)]⟩)

def empty : Imports := ⟨[]⟩

/-- The imports of a file before its message types are known. -/
def framework : Imports :=
  (((empty.add nexusPath "nexus").2.add workerPath "worker").2.add workflowPath "workflow").2

/-- The entries in the order of their paths, as the block lists them. -/
def sorted (i : Imports) : List (String × String) :=
  i.entries.mergeSort (fun a b => decide (a.1 ≤ b.1))

def size (i : Imports) : Nat := i.entries.length

def isEmpty (i : Imports) : Bool := i.entries.isEmpty

end Imports

end GoBindings.Go

/-
  GoBindings.lean
  ===============
  **Go clients and handlers for the services of an interface description.**

  A compiler of interface descriptions asks for output: it sends the declarations
  of the source files and a parameter. For every file with services the answer is
  a Go file in which each method is an operation that a workflow can call and a
  handler can serve.
-/
import GoBindings.CommandLine
import GoBindings.Main
import GoBindings.Proofs.AliasAllocation
import GoBindings.Proofs.AliasClashes
import GoBindings.Proofs.Aliases
import GoBindings.Proofs.Alone
import GoBindings.Proofs.Bindings
import GoBindings.Proofs.Blocks
import GoBindings.Proofs.CamelCase
import GoBindings.Proofs.Choices
import GoBindings.Proofs.ChosenNames
import GoBindings.Proofs.ClaimLog
import GoBindings.Proofs.Collecting
import GoBindings.Proofs.Declarations
import GoBindings.Proofs.Delivery
import GoBindings.Proofs.Directories
import GoBindings.Proofs.DistinctLiterals
import GoBindings.Proofs.Drafts
import GoBindings.Proofs.EarlyOptions
import GoBindings.Proofs.ExportedNames
import GoBindings.Proofs.Fatality
import GoBindings.Proofs.Faults
import GoBindings.Proofs.FirstDeclarations
import GoBindings.Proofs.Gathering
import GoBindings.Proofs.Generation
import GoBindings.Proofs.GrowingPools
import GoBindings.Proofs.ImportBlocks
import GoBindings.Proofs.Independence
import GoBindings.Proofs.IndexOrder
import GoBindings.Proofs.KeptOptions
import GoBindings.Proofs.Keys
import GoBindings.Proofs.Links
import GoBindings.Proofs.Literals
import GoBindings.Proofs.Lookups
import GoBindings.Proofs.Mappings
import GoBindings.Proofs.NamesInFields
import GoBindings.Proofs.Nesting
import GoBindings.Proofs.OperationNames
import GoBindings.Proofs.OutputNames
import GoBindings.Proofs.PackageClauses
import GoBindings.Proofs.Parameter
import GoBindings.Proofs.ParameterOrder
import GoBindings.Proofs.Parses
import GoBindings.Proofs.Pieces
import GoBindings.Proofs.PoolOrder
import GoBindings.Proofs.Pools
import GoBindings.Proofs.Qualifiers
import GoBindings.Proofs.Reencoding
import GoBindings.Proofs.Registry
import GoBindings.Proofs.Rendering
import GoBindings.Proofs.Reordering
import GoBindings.Proofs.Repetitions
import GoBindings.Proofs.Reports
import GoBindings.Proofs.Rereading
import GoBindings.Proofs.RuntimeNames
import GoBindings.Proofs.SanitizedNames
import GoBindings.Proofs.Shapes
import GoBindings.Proofs.Sites
import GoBindings.Proofs.Taking
import GoBindings.Proofs.Templates
import GoBindings.Proofs.Text
import GoBindings.Proofs.UniqueIdentifiers
import GoBindings.Proofs.UniqueNames
import GoBindings.Proofs.UsableNames
import GoBindings.Proofs.WholePools
import GoBindings.Proofs.WrittenFields

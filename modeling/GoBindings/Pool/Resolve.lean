/-
  GoBindings/Pool/Resolve.lean
  ============================
  **Finding what a type name refers to.**

  A name that starts with a dot is a full name, and so is any name that is used
  outside of all scopes. Any other name is looked for in the scope of the reference
  and then in the scopes around it. A name without dots is the first match that is
  of the wanted sort and is visible. A name with dots is decided by the innermost
  scope in which its first part names something that can hold other names.
-/
import GoBindings.Pool.Name
import GoBindings.Text.Cut

namespace GoBindings

/-- What a reference is resolved against. -/
structure Surroundings where
  definitions : List Definition
  /-- The files whose definitions can be referred to. -/
  visible : List String
deriving Repr

namespace Surroundings

def lookup? (s : Surroundings) (fullName : String) : Option Definition :=
  s.definitions.find? (·.name == fullName)

/-- The definition of a full name, if it is of the wanted sort and visible. -/
def find? (s : Surroundings) (wanted : Entity → Bool) (fullName : String) : Option Definition :=
  (s.lookup? fullName).filter fun d => wanted d.entity && s.visible.contains d.file

/-- Whether a full name can be the beginning of others. -/
def isScope (s : Surroundings) (fullName : String) : Bool :=
  (s.lookup? fullName).any (·.entity.isScope)

/-- The scopes in which a reference from `scope` is looked for, innermost first. -/
def scopes (scope : String) : List String := enclosing scope ++ [""]

/-- What a name refers to when it is used in a scope. -/
def resolve? (s : Surroundings) (wanted : Entity → Bool) (scope name : String) :
    Option Definition :=
  match Text.dropStart? "." name with
  | some fullName => s.find? wanted fullName
  | none =>
    if scope.isEmpty then s.find? wanted name
    else
      match Text.cutFirst? '.' name with
      | none =>
        (scopes scope).findSome? fun outer => s.find? wanted (Descriptor.qualify outer name)
      | some (first, _) =>
        match (scopes scope).find? fun outer => s.isScope (Descriptor.qualify outer first) with
        | some outer => s.find? wanted (Descriptor.qualify outer name)
        | none => none

/-- The full name of the message that a name refers to. -/
def message? (s : Surroundings) (scope name : String) : Option String :=
  (s.resolve? (· == .message) scope name).map (·.name)

end Surroundings

end GoBindings

/-
  GoBindings/Pool/Basic.lean
  ==========================
  **The pool of declarations that options are read with.**

  Custom options are fields that some file declares as extensions, so reading
  them needs the declarations of every file. The pool numbers the extensions of
  its files, and registers with each message type the numbers of those that extend
  it. Of the extensions registered with a type, the first one with a field number
  counts. A set of options whose type the pool does not declare is read as the
  language defines it.
-/
import GoBindings.Pool.Link
import GoBindings.Pool.StandardOptions
import GoBindings.Text.Cut

namespace GoBindings

/-- Files with resolved references, in the order in which they were added. -/
structure Pool where
  files : List Linked.File
  /-- A message type and the number of an extension that is registered with it. -/
  registrations : List (String × Nat)
  /-- Packages that only files which were left out define. -/
  leftovers : List Definition
deriving Repr

namespace Pool

def empty : Pool := ⟨[], [], []⟩

instance : Inhabited Pool := ⟨empty⟩

/-! ### Looking things up -/

def file? (p : Pool) (name : String) : Option Linked.File := p.files.find? (·.name == name)

def definitions (p : Pool) : List Definition := p.files.flatMap (·.definitions) ++ p.leftovers

def messages (p : Pool) : List Linked.MessageType := p.files.flatMap (·.messages)

def enums (p : Pool) : List Linked.EnumType := p.files.flatMap (·.enums)

/-- The extensions of all files; the position of one is its number. -/
def extensions (p : Pool) : List Linked.Extension := p.files.flatMap (·.extensions)

def message? (p : Pool) (fullName : String) : Option Linked.MessageType :=
  p.messages.find? (·.fullName == fullName)

def extension? (p : Pool) (fullName : String) : Option Linked.Extension :=
  p.extensions.find? (·.fullName == fullName)

/-- The service with a name, which may start with a dot. -/
def service? (p : Pool) (name : String) : Option Linked.Service :=
  (p.files.flatMap (·.services)).find? (·.fullName == (Text.dropStart? "." name).getD name)

/-- The first extension registered with a message type that has a field number. -/
def extensionOf? (p : Pool) (type : String) (number : Nat) : Option Linked.Extension :=
  (p.registrations.filterMap fun r => if r.1 == type then p.extensions[r.2]? else none).find?
    (·.field.number == (number : Int))

/-! ### Types -/

/-- The types that the pool declares. -/
def types (p : Pool) : Types := ⟨p.messages, p.enums, p.extensionOf?⟩

/-- The types by which options of some type are read. -/
def typesFor (p : Pool) (type : String) : Types :=
  if (p.message? type).isSome then p.types else StandardOptions.types

/-! ### Which files a file sees -/

/-- The files seen so far and those that a file passes on, where `passedOn` says what
    each file may pass on. A file that was seen before passes on its own; at most
    `fuel` files are followed in a row. -/
def passOn (passedOn : String → List String) : Nat → List String → String → List String
  | 0, seen, _ => seen
  | fuel + 1, seen, name =>
    (passedOn name).foldl
      (fun seen next =>
        if seen.contains next then passOn passedOn fuel seen next else seen ++ [next])
      seen

/-- The files that a file sees through its dependencies, after it saw some through
    those that come before. -/
def seenThrough (p : Pool) (f : Descriptor.File) :
    List String → List String → List String → List String
  | _, seen, [] => seen
  | before, seen, d :: rest =>
    if d == f.name || (p.file? d).isSome then
      let dependencies := before ++ [d]
      let passedOn (name : String) : List String :=
        if name == f.name then Descriptor.passedOn dependencies f.publicDependencies
        else ((p.file? name).map (·.passedOn)).getD []
      p.seenThrough f dependencies (passOn passedOn (p.files.length + 2) (seen ++ [d]) d) rest
    else p.seenThrough f before seen rest

/-- The files that a file sees: itself, its dependencies in order, and after each of
    them what it passes on. -/
def visibleTo (p : Pool) (f : Descriptor.File) : List String :=
  p.seenThrough f [] [f.name] f.dependencies

end Pool

end GoBindings

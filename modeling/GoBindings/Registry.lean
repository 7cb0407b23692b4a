/-
  GoBindings/Registry.lean
  ========================
  **Package-level Go identifiers and who owns them.**

  Output for several source files may end up in one Go package, where each
  identifier can be declared once. The registry is a log of claims: the first
  claim to an identifier of a package makes its origin the owner, for good. A
  later claim by the same origin changes nothing, one by another origin is a
  collision.
-/
import GoBindings.Service.Names
import GoBindings.TypeIndex

namespace GoBindings

/-- An identifier of the package at a path, and what it is declared for. -/
structure Claim where
  path : String
  ident : String
  origin : String
deriving DecidableEq, Repr

/-- Granted claims, the first one first. -/
structure Registry where
  claims : List Claim
deriving DecidableEq, Repr

namespace Registry

def empty : Registry := ⟨[]⟩

instance : Inhabited Registry := ⟨empty⟩

/-- What an identifier is declared for, if it is declared. -/
def owner? (r : Registry) (path ident : String) : Option String :=
  (r.claims.find? fun c => c.path == path && c.ident == ident).map (·.origin)

def contains (r : Registry) (path ident : String) : Bool := (r.owner? path ident).isSome

def grant (r : Registry) (c : Claim) : Registry := ⟨r.claims ++ [c]⟩

/-- Grants a claim unless the identifier has another owner. -/
def reserve (r : Registry) (c : Claim) : Except Fault Registry :=
  match r.owner? c.path c.ident with
  | none => .ok (r.grant c)
  | some first =>
    if first = c.origin then .ok r
    else .error (.identifierCollision c.ident first c.origin)

/-- Grants claims in order up to the first collision. -/
def reserveAll (r : Registry) : List Claim → Registry × Option Fault
  | [] => (r, none)
  | c :: rest =>
    match r.reserve c with
    | .ok next => next.reserveAll rest
    | .error fault => (r, some fault)

/-- Grants a claim if the identifier has no owner. -/
def offer (r : Registry) (c : Claim) : Registry :=
  if r.contains c.path c.ident then r else r.grant c

/-! ### Claims of types -/

def messageClaim (path : String) (m : MessageRef) : Claim :=
  ⟨path, m.goIdent, "message " ++ m.fullName⟩

def enumClaims (path : String) (e : EnumRef) : List Claim :=
  e.goIdents.map fun ident => ⟨path, ident, "enum " ++ e.fullName⟩

/-- The claims of the messages and enums generated into the package at a path. -/
def typeClaims (index : TypeIndex) (path : String) : List Claim :=
  (index.messagesAt path).map (messageClaim path) ++ (index.enumsAt path).flatMap (enumClaims path)

/-- Offers the identifiers of types; those that have an owner keep it. -/
def seed (r : Registry) (index : TypeIndex) (path : String) : Registry :=
  (typeClaims index path).foldl offer r

/-! ### Claims of services -/

/-- The claims of a service and its operations, in the order in which they are made. -/
def serviceClaims (path : String) (s : NamedService) : List Claim :=
  [s.names.serviceNameConst, s.names.client, s.names.clientConstructor, s.names.handler,
      s.names.register].map (fun ident => ⟨path, ident, "service " ++ s.service.fullName⟩)
    ++ s.operations.map fun op =>
      ⟨path, op.names.operationNameConst, s.service.operationOrigin op.operation⟩

/-- Claims every identifier of a service, up to the first collision. -/
def register (r : Registry) (path : String) (s : NamedService) : Registry × Option Fault :=
  r.reserveAll (serviceClaims path s)

/-- The same for several services, none of which may collide. -/
def registerAll (r : Registry) (path : String) (services : List NamedService) :
    Except Fault Registry :=
  match r.reserveAll (services.flatMap (serviceClaims path)) with
  | (next, none) => .ok next
  | (_, some fault) => .error fault

end Registry

end GoBindings

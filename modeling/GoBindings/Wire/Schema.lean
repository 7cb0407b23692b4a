/-
  GoBindings/Wire/Schema.lean
  ===========================
  **Whether a message fits a schema.**

  A schema says for every type of message which fields it has and how each is
  carried. A message fits when every field that the schema knows is carried that
  way, texts are UTF-8, and messages inside fit as well. A field that the schema
  does not know may hold anything.

  Nesting is limited by a budget that every level of messages or groups takes
  one from. Readers differ in whether a field that is read, or a plain field that
  is skipped, needs budget left as well, so that is part of the schema.
-/
import GoBindings.Wire.Fields

namespace GoBindings.Wire

/-- How the values of a field are carried. Type names are from `κ`. -/
inductive Carrier (κ : Type) where
  | varint
  | fixed64
  | fixed32
  | text
  | bytes
  | message (type : κ)
  | group (type : κ)
deriving DecidableEq, Repr

/-- A field of a schema. -/
structure Shape (κ : Type) where
  carrier : Carrier κ
  repeated : Bool
deriving DecidableEq, Repr

/-- The fields of every type of message. -/
structure Schema (κ : Type) where
  /-- The field of a type with a number, if the type has one. -/
  shape? : κ → Nat → Option (Shape κ)
  /-- The budget that must be left when a field of a type is read. -/
  fieldCost : κ → Nat
  /-- The budget that must be left when a plain field is skipped. -/
  skipCost : Nat

mutual

/-- The budget that skipping a payload needs. -/
def Payload.cost (skipCost : Nat) : Payload → Nat
  | .group fields => 1 + costOfFields skipCost fields
  | _ => skipCost

/-- The budget that skipping the costliest of some fields needs. -/
def costOfFields (skipCost : Nat) : List (Nat × Payload) → Nat
  | [] => 0
  | (_, payload) :: rest => max (payload.cost skipCost) (costOfFields skipCost rest)

end

namespace Schema

variable {κ : Type}

/-- Whether a payload is carried as a shape says; `fits` decides about messages inside. -/
def carries (fits : κ → Message → Bool) (shape : Shape κ) (payload : Payload) : Bool :=
  match shape.carrier, payload with
  | .varint, .varint _ => true
  | .varint, .bytes content =>
    shape.repeated && (packedNumbers? content).isSome
  | .fixed64, .fixed64 _ => true
  | .fixed64, .bytes content => shape.repeated && content.length % 8 == 0
  | .fixed32, .fixed32 _ => true
  | .fixed32, .bytes content => shape.repeated && content.length % 4 == 0
  | .text, .bytes content => (Text.ofUtf8? content).isSome
  | .bytes, .bytes _ => true
  | .message type, .bytes content => (Message.read? content).any (fits type)
  | .group type, .group fields => fits type fields
  | _, _ => false

/-- Whether a field is within the budget and fits: `fits` decides about messages
    inside, and a field that the schema does not know may hold anything. -/
def admits (s : Schema κ) (budget : Nat) (fits : κ → Message → Bool) (type : κ)
    (field : Field) : Bool :=
  match s.shape? type field.1 with
  | some shape => decide (s.fieldCost type ≤ budget) && carries fits shape field.2
  | none => decide (field.2.cost s.skipCost ≤ budget)

/-- Whether a message fits its type within a budget for nesting. -/
def fits (s : Schema κ) : Nat → κ → Message → Bool
  | 0, type, m => m.all (s.admits 0 (fun _ _ => false) type)
  | budget + 1, type, m => m.all (s.admits (budget + 1) (s.fits budget) type)

/-- How deep messages may nest. -/
def nestingLimit : Nat := 100

/-- Whether the fields of a message fit its type. -/
def accepts (s : Schema κ) (type : κ) (m : Message) : Bool := s.fits nestingLimit type m

end Schema

end GoBindings.Wire

/-
  GoBindings/Pool/Record/Basic.lean
  =================================
  **Messages with the values of their fields.**

  A record has at most one value for a field number, in the order of the numbers.
  What is found under a number that the type of the message does not know is kept
  as it was found. A field that does not tell nothing from not being set counts as
  set if its value is not the default.
-/
import GoBindings.Pool.Types

namespace GoBindings

/-- The value of a field. -/
inductive Value where
  /-- A value in normal form. -/
  | scalar (payload : Wire.Payload)
  | message (fields : List (Nat × Value))
  | list (elements : List Value)
  | map (entries : List (Value × Value))
  /-- What was found under a number that no field has. -/
  | unknown (payloads : List Wire.Payload)

/-- A message by field number. -/
abbrev Record := List (Nat × Value)

namespace Value

/-- The fields of a message. -/
def fields : Value → Record
  | .message r => r
  | _ => []

/-- The elements of a list. -/
def elements : Value → List Value
  | .list es => es
  | _ => []

/-- The entries of a map. -/
def entries : Value → List (Value × Value)
  | .map es => es
  | _ => []

/-- Whether a value is a key. Keys are texts, integers or truths. -/
def isKey : Value → Value → Bool
  | .scalar (.varint a), .scalar (.varint b) => a == b
  | .scalar (.fixed32 a), .scalar (.fixed32 b) => a == b
  | .scalar (.fixed64 a), .scalar (.fixed64 b) => a == b
  | .scalar (.bytes a), .scalar (.bytes b) => a == b
  | _, _ => false

/-- The entries with another one; the last value of a key counts. -/
def withEntry (v : Value) (key value : Value) : Value :=
  .map ((v.entries.filter fun e => !key.isKey e.1) ++ [(key, value)])

end Value

namespace Record

/-- The value under a number, if a field has the number. -/
def value? (r : Record) (number : Nat) : Option Value :=
  match r.lookup number with
  | some (.unknown _) => none
  | found => found

/-- The record without what is under some numbers. -/
def without (r : Record) (numbers : List Nat) : Record :=
  r.filter fun entry => !numbers.contains entry.1

/-- The record with a value under a number. -/
def set (r : Record) (number : Nat) (v : Value) : Record :=
  r.filter (·.1 < number) ++ (number, v) :: r.filter (number < ·.1)

/-- The record with one more payload under a number that no field has. -/
def addUnknown (r : Record) (number : Nat) (payload : Wire.Payload) : Record :=
  match r.lookup number with
  | some (.unknown payloads) => r.set number (.unknown (payloads ++ [payload]))
  | _ => r.set number (.unknown [payload])

end Record

namespace Types

/-- The value of a field that is not set. -/
def default (t : Types) (f : Linked.Field) : Value :=
  if (t.entryType? f).isSome then .map []
  else if f.repeated then .list []
  else
    match t.defaultPayload? f with
    | some payload => .scalar payload
    | none => .message []

/-- Whether a value is that of the field when it is not set. -/
def isDefault (t : Types) (f : Linked.Field) : Value → Bool
  | .scalar payload =>
    !f.repeated
      && (match f.kind.scalar?, t.defaultPayload? f with
        | some type, some other => type.same payload other
        | _, _ => false)
  | .list elements => elements.isEmpty
  | .map entries => entries.isEmpty
  | .message _ => false
  | .unknown _ => false

/-- Whether a field with a value counts as set. -/
def isSet (t : Types) (f : Linked.Field) (v : Value) : Bool := f.hasPresence || !t.isDefault f v

/-- Whether a record sets a field. -/
def has (t : Types) (r : Record) (f : Linked.Field) : Bool :=
  (r.value? f.number.toNat).any (t.isSet f)

/-- The value of a field, set or not. -/
def valueIn (t : Types) (r : Record) (f : Linked.Field) : Value :=
  (r.value? f.number.toNat).getD (t.default f)

/-- The record with a value for a field. The other members of its oneof are unset. -/
def assign (r : Record) (f : Linked.Field) (v : Value) : Record :=
  (Record.without r f.rivals).set f.number.toNat v

end Types

end GoBindings

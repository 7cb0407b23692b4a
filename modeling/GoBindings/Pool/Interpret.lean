/-
  GoBindings/Pool/Interpret.lean
  ==============================
  **Interpreting options that were not yet resolved.**

  Options are read by their type, each setting is made, and the result is written
  again without the settings. A setting names a path of fields, of which all but the
  last hold one message, and a value for the last one. A field that holds one value
  may be set only once. A setting that names no field sets nothing.
-/
import GoBindings.Descriptor.Setting
import GoBindings.Pool.Basic
import GoBindings.Pool.Record.Reader
import GoBindings.Pool.Record.Writer
import GoBindings.Pool.Resolve

namespace GoBindings

/-! ### Values -/

namespace Descriptor.Setting

/-- The integer that a setting gives. -/
def integer? (v : Setting) : Option Int := (v.positive.map Int.ofNat).or v.negative

/-- The pattern of the number that a setting gives; an integer will do. -/
def double? (v : Setting) : Option Nat :=
  v.decimal.or (v.integer?.map BinaryFormat.double.ofInt)

def truth? (v : Setting) : Option Bool :=
  match v.identifier with
  | some "true" => some true
  | some "false" => some false
  | _ => none

/-- The payload for a value of a type, if the setting gives such a value. -/
def payload? (v : Setting) : Scalar → Option Wire.Payload
  | .double => v.double?.map .fixed64
  | .float => v.double?.map fun bits => .fixed32 (BinaryFormat.double.convert .single bits)
  | .bool => v.truth?.map Scalar.ofTruth
  | .string => (v.text.filter fun bytes => (Text.ofUtf8? bytes).isSome).map .bytes
  | .bytes => v.text.map .bytes
  | type => v.integer?.bind type.ofInt?

end Descriptor.Setting

namespace Types

open Descriptor (Setting)

/-- What a setting gives for one value of some type. A message can only be given as a
    whole, which is then empty. -/
def given? (t : Types) (v : Setting) : Linked.Kind → Option Value
  | .scalar type => (v.payload? type).map .scalar
  | .enumeration fullName => do
    let name ← v.identifier
    let e ← t.enumeration? fullName
    let n ← e.values.lookup name
    some (.scalar (.varint (Wire.bits64 n)))
  | .message _ => v.aggregate.map fun _ => .message []
  | .group _ => v.aggregate.map fun _ => .message []

/-- An entry of a map with the defaults of its key and of its value. -/
def defaultEntry? (t : Types) (entry : Linked.MessageType) : Option (Value × Value) := do
  let key ← entry.field? 1
  let value ← entry.field? 2
  some (t.default key, t.default value)

/-- The record with a field set. A list gets one more element, a map one more entry. -/
def make? (t : Types) (v : Setting) (r : Record) (f : Linked.Field) : Option Record :=
  match t.entryType? f with
  | some entry => do
    let _ ← v.aggregate
    let (key, value) ← t.defaultEntry? entry
    some (assign r f ((t.valueIn r f).withEntry key value))
  | none =>
    if f.repeated then
      (t.given? v f.kind).map fun e => assign r f (.list ((t.valueIn r f).elements ++ [e]))
    else if t.has r f then none
    else (t.given? v f.kind).map (assign r f)

end Types

namespace Pool

open Descriptor (Setting NamePart)

/-! ### Settings -/

/-- The field of a message type that a name in a scope refers to. -/
def namedField? (p : Pool) (s : Surroundings) (t : Types) (scope type : String)
    (part : NamePart) : Option Linked.Field :=
  if part.isExtension then do
    let d ← s.resolve? (· == .extensionField) scope part.name
    let x ← p.extension? d.name
    if x.extendee = type then some x.field else none
  else (t.message? type).bind (·.fields.find? (·.name == part.name))

/-- A message of a type with a setting made. -/
def settle? (p : Pool) (s : Surroundings) (t : Types) (scope : String) (v : Setting) :
    String → Record → List NamePart → Option Record
  | _, r, [] => some r
  | type, r, [part] => do
    let f ← p.namedField? s t scope type part
    t.make? v r f
  | type, r, part :: rest => do
    let f ← p.namedField? s t scope type part
    let inner ← f.kind.message?
    if f.repeated then none
    else do
      let fields ← p.settle? s t scope v inner (t.valueIn r f).fields rest
      some (Types.assign r f (.message fields))

/-- A set of options, the type that it is read by, and the scope of names in it. -/
structure OptionBlock where
  type : String
  scope : String
  options : List UInt8
deriving Repr

/-- Options without what is not yet resolved, if their type declares a field for it. -/
def withoutSettings (t : Types) (type : String) (r : Record) : Record :=
  if (t.declared? type Descriptor.settingsNumber).isSome then
    r.without [Descriptor.settingsNumber]
  else r

/-- The options with all settings made, if they can be read and all can be made. -/
def interpret? (p : Pool) (s : Surroundings) (b : OptionBlock) : Option (List UInt8) :=
  if b.options.isEmpty then some []
  else do
    let t := p.typesFor b.type
    let r ← t.read? b.type b.options
    let made ← (Descriptor.settingsIn b.options).foldlM
      (fun r v => p.settle? s t b.scope v b.type r v.path) r
    some (t.write b.type (withoutSettings t b.type made))

end Pool

end GoBindings

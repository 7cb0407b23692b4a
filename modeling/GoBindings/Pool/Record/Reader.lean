/-
  GoBindings/Pool/Record/Reader.lean
  ==================================
  **Reading messages by their types.**

  Fields are taken one after the other. One that holds one value takes the last,
  messages merge, and a repeated field takes them all. A map takes the entries of
  delimited bytes, whatever the tag says about what follows.

  Nesting is limited by a budget that every level of messages or groups takes one
  from, but not the entries of maps. Two steps for each byte are enough.
-/
import GoBindings.Pool.Record.Basic
import GoBindings.Wire.Schema

namespace GoBindings.Types

open Linked (Field Kind)

/-- Reads one value that is not a message. -/
def readScalar? (kind : Kind) (tag : Wire.Tag) (bytes : List UInt8) :
    Option (Value × List UInt8) := do
  let type ← kind.scalar?
  if tag = type.tag then
    let (payload, rest) ← Wire.readPayload? tag bytes
    let normal ← type.normal? payload
    some (.scalar normal, rest)
  else none

/-- Reads values that are written together. -/
def readPacked? (kind : Kind) : Nat → List UInt8 → Option (List Value)
  | _, [] => some []
  | 0, _ :: _ => none
  | fuel + 1, bytes => do
    let type ← kind.scalar?
    let (v, rest) ← readScalar? kind type.tag bytes
    (readPacked? kind fuel rest).map (v :: ·)

mutual

/-- Reads fields into a record, up to the end of the input or, inside a group, up to
    the end tag with the group's number. -/
def mergeFields (t : Types) :
    Nat → Nat → String → Option Nat → Record → List UInt8 → Option (Record × List UInt8)
  | 0, _, _, _, _, _ => none
  | fuel + 1, budget, type, inGroup, r, bytes =>
    if bytes.isEmpty && inGroup.isNone then some (r, [])
    else do
      let ((number, tag), rest) ← Wire.readKey? bytes
      if tag = .groupEnd then
        if inGroup = some number then some (r, rest) else none
      else
        match t.field? type number with
        | some f => do
          let (v, after) ← t.mergeValue fuel budget f tag (t.valueIn r f) rest
          t.mergeFields fuel budget type inGroup (assign r f v) after
        | none => do
          let (payload, after) ← Wire.readContent? number tag rest
          if payload.cost 0 ≤ budget then
            t.mergeFields fuel budget type inGroup (r.addUnknown number payload) after
          else none

/-- Reads what a field carries into its value. -/
def mergeValue (t : Types) :
    Nat → Nat → Field → Wire.Tag → Value → List UInt8 → Option (Value × List UInt8)
  | 0, _, _, _, _, _ => none
  | fuel + 1, budget, f, tag, v, bytes =>
    match t.entryType? f with
    | some entry => do
      let keyField ← entry.field? 1
      let valueField ← entry.field? 2
      let (content, rest) ← Wire.readDelimited? bytes
      let (key, value) ← t.mergeEntry fuel budget keyField valueField
        (t.default keyField, t.default valueField) content
      some (v.withEntry key value, rest)
    | none =>
      if !f.repeated then t.mergeOne fuel budget f.kind f.number.toNat tag v bytes
      else if tag = .bytes && f.kind.isPackable then do
        let (content, rest) ← Wire.readDelimited? bytes
        let more ← readPacked? f.kind content.length content
        some (.list (v.elements ++ more), rest)
      else do
        let (e, rest) ← t.mergeOne fuel budget f.kind f.number.toNat tag (.message []) bytes
        some (.list (v.elements ++ [e]), rest)

/-- Reads what a field that holds one value carries; fields of a message are added to
    those that the value has. -/
def mergeOne (t : Types) :
    Nat → Nat → Kind → Nat → Wire.Tag → Value → List UInt8 → Option (Value × List UInt8)
  | 0, _, _, _, _, _, _ => none
  | fuel + 1, budget, kind, number, tag, v, bytes =>
    match kind with
    | .message type =>
      if tag = .bytes && 0 < budget then do
        let (content, rest) ← Wire.readDelimited? bytes
        let (r, _) ← t.mergeFields fuel (budget - 1) type none v.fields content
        some (.message r, rest)
      else none
    | .group type =>
      if tag = .groupStart && 0 < budget then do
        let (r, rest) ← t.mergeFields fuel (budget - 1) type (some number) v.fields bytes
        some (.message r, rest)
      else none
    | other => readScalar? other tag bytes

/-- Reads the entry of a map: its key, its value, and other fields, which are skipped. -/
def mergeEntry (t : Types) :
    Nat → Nat → Field → Field → Value × Value → List UInt8 → Option (Value × Value)
  | 0, _, _, _, _, _ => none
  | fuel + 1, budget, keyField, valueField, (key, value), bytes =>
    if bytes.isEmpty then some (key, value)
    else do
      let ((number, tag), rest) ← Wire.readKey? bytes
      if number = 1 then do
        let (key, after) ← readScalar? keyField.kind tag rest
        t.mergeEntry fuel budget keyField valueField (key, value) after
      else if number = 2 then do
        let (value, after) ← t.mergeValue fuel budget valueField tag value rest
        t.mergeEntry fuel budget keyField valueField (key, value) after
      else do
        let (payload, after) ← Wire.readContent? number tag rest
        if payload.cost 1 ≤ budget then
          t.mergeEntry fuel budget keyField valueField (key, value) after
        else none

end

/-- The message of a type that the bytes hold, if they hold one. -/
def read? (t : Types) (type : String) (bytes : List UInt8) : Option Record :=
  (t.mergeFields (2 * bytes.length + 2) Wire.Schema.nestingLimit type none [] bytes).map (·.1)

end GoBindings.Types

/-
  GoBindings/Pool/Record/Writer.lean
  ==================================
  **Writing messages by their types.**

  Declared fields come first, in the order of their numbers, if they are set. Then
  come extensions and what no field has the number of. A value under the number of
  an extension that does not belong to the type is left out.
-/
import GoBindings.Pool.Record.Basic

namespace GoBindings.Types

open Linked (Field)

/-- The payload without a key of a value that is not a message. -/
def bare : Value → List UInt8
  | .scalar payload => payload.bare
  | _ => []

/-- Fields written one by one, the declared ones, which are marked, before the others. -/
def inOrder (fields : List (Bool × List UInt8)) : List UInt8 :=
  ((fields.filter (·.1)).flatMap (·.2)) ++ ((fields.filter (!·.1)).flatMap (·.2))

mutual

/-- A field with its value. -/
def writeValue (t : Types) (f : Field) : Value → List UInt8
  | .scalar payload => payload.write f.number.toNat
  | .message r =>
    match f.kind with
    | .group type =>
      Wire.writeKey f.number.toNat 3 ++ inOrder (t.writeEach type r)
        ++ Wire.writeKey f.number.toNat 4
    | .message type => Wire.writeBytes f.number.toNat (inOrder (t.writeEach type r))
    | _ => []
  | .list es =>
    if f.packed then Wire.writeBytes f.number.toNat (es.flatMap bare) else t.writeAll f es
  | .map es =>
    match t.entryType? f with
    | some entry => t.writeEntries f entry es
    | none => []
  | .unknown payloads => payloads.flatMap (·.write f.number.toNat)

/-- A repeated field, value by value. -/
def writeAll (t : Types) (f : Field) : List Value → List UInt8
  | [] => []
  | v :: rest => t.writeValue f v ++ t.writeAll f rest

/-- A map, entry by entry. -/
def writeEntries (t : Types) (f : Field) (entry : Linked.MessageType) :
    List (Value × Value) → List UInt8
  | [] => []
  | (key, value) :: rest =>
    Wire.writeBytes f.number.toNat
        (((entry.field? 1).map fun k => t.writeValue k key).getD []
          ++ ((entry.field? 2).map fun v => t.writeValue v value).getD [])
      ++ t.writeEntries f entry rest

/-- The fields of a message one by one, the declared ones marked. -/
def writeEach (t : Types) (type : String) : List (Nat × Value) → List (Bool × List UInt8)
  | [] => []
  | (number, v) :: rest =>
    (match t.declared? type number, t.extensionOf? type number, v with
      | some f, _, v => (true, if t.isSet f v then t.writeValue f v else [])
      | none, _, .unknown payloads => (false, payloads.flatMap (·.write number))
      | none, some x, v => (false, if t.isSet x.field v then t.writeValue x.field v else [])
      | none, none, _ => (false, [])) :: t.writeEach type rest

end

/-- The bytes of a message of a type. -/
def write (t : Types) (type : String) (r : Record) : List UInt8 := inOrder (t.writeEach type r)

end GoBindings.Types

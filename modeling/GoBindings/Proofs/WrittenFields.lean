/-
  GoBindings/Proofs/WrittenFields.lean
  ====================================
  **What is written of a message are fields.**

  The writer gives bytes. The same recursion gives fields (`Types.fieldsOf`), whose bytes these are
  (`Types.write_eq`), field by field and in the order of the writer. A field is no longer than the
  bytes that it is part of.
-/
import GoBindings.Pool.Record.Writer
import GoBindings.Proofs.Parses

namespace GoBindings

open Linked (Field)
open Wire (Message writeFields)

namespace Types

/-- Fields one by one, the declared ones, which are marked, before the others. -/
def declaredFirst (fields : List (Bool × Message)) : Message :=
  (fields.filter (·.1)).flatMap (·.2) ++ (fields.filter (!·.1)).flatMap (·.2)

/-- What an entry of a map holds. -/
def entryContent (t : Types) (entry : Linked.MessageType) (e : Value × Value) : List UInt8 :=
  ((entry.field? 1).map fun k => t.writeValue k e.1).getD []
    ++ ((entry.field? 2).map fun v => t.writeValue v e.2).getD []

mutual

/-- A field with its value. -/
def fieldsOfValue (t : Types) (f : Field) : Value → Message
  | .scalar payload => [(f.number.toNat, payload)]
  | .message r =>
    match f.kind with
    | .group type => [(f.number.toNat, .group (declaredFirst (t.fieldsOfEach type r)))]
    | .message type => [(f.number.toNat, .bytes (t.write type r))]
    | _ => []
  | .list es =>
    if f.packed then [(f.number.toNat, .bytes (es.flatMap bare))] else t.fieldsOfAll f es
  | .map es =>
    match t.entryType? f with
    | some entry => es.map fun e => (f.number.toNat, .bytes (t.entryContent entry e))
    | none => []
  | .unknown payloads => payloads.map fun payload => (f.number.toNat, payload)

/-- A repeated field, value by value. -/
def fieldsOfAll (t : Types) (f : Field) : List Value → Message
  | [] => []
  | v :: rest => t.fieldsOfValue f v ++ t.fieldsOfAll f rest

/-- The fields of a message one by one, the declared ones marked. -/
def fieldsOfEach (t : Types) (type : String) : List (Nat × Value) → List (Bool × Message)
  | [] => []
  | (number, v) :: rest =>
    (match t.declared? type number, t.extensionOf? type number, v with
      | some f, _, v => (true, if t.isSet f v then t.fieldsOfValue f v else [])
      | none, _, .unknown payloads => (false, payloads.map fun payload => (number, payload))
      | none, some x, v => (false, if t.isSet x.field v then t.fieldsOfValue x.field v else [])
      | none, none, _ => (false, [])) :: t.fieldsOfEach type rest

end

/-- The fields that are written of a message of a type. -/
def fieldsOf (t : Types) (type : String) (r : Record) : Message :=
  declaredFirst (t.fieldsOfEach type r)

variable {t : Types} {type : String} {f : Field}

/-! ### The bytes of the fields -/

theorem writeFields_map (number : Nat) (payloads : List Wire.Payload) :
    writeFields (payloads.map fun payload => (number, payload)) =
      payloads.flatMap (·.write number) := by
  induction payloads with
  | nil => rfl
  | cons p payloads ih => rw [List.map_cons, writeFields, ih, List.flatMap_cons]

theorem writeFields_singleton (number : Nat) (p : Wire.Payload) :
    writeFields [(number, p)] = p.write number := by
  rw [writeFields, writeFields, List.append_nil]

theorem inOrder_eq (fields : List (Bool × Message)) :
    inOrder (fields.map fun x => (x.1, writeFields x.2)) = writeFields (declaredFirst fields) := by
  have hpart (p : Bool → Bool) :
      ((fields.map fun x => (x.1, writeFields x.2)).filter (p ·.1)).flatMap (·.2) =
        writeFields ((fields.filter (p ·.1)).flatMap (·.2)) := by
    rw [List.filter_map, List.flatMap_map, Wire.writeFields_flatMap]
    rfl
  rw [inOrder, declaredFirst, Wire.writeFields_append]
  exact congrArg₂ _ (hpart id) (hpart not)

mutual

theorem writeValue_eq (t : Types) (f : Field) :
    ∀ v, t.writeValue f v = writeFields (t.fieldsOfValue f v)
  | .scalar payload => by
    rw [writeValue, fieldsOfValue, writeFields_singleton]
  | .message r => by
    rw [writeValue, fieldsOfValue]
    cases hkind : f.kind with
    | group type =>
      simp only [writeFields_singleton, Wire.Payload.write, writeEach_eq t type r, inOrder_eq]
    | message type => simp only [writeFields_singleton, Wire.Payload.write, write]
    | scalar type => rfl
    | enumeration type => rfl
  | .list es => by
    rw [writeValue, fieldsOfValue]
    split
    case isTrue => rw [writeFields_singleton, Wire.Payload.write]
    case isFalse => exact writeAll_eq t f es
  | .map es => by
    rw [writeValue, fieldsOfValue]
    cases t.entryType? f with
    | some entry => exact writeEntries_eq t f entry es
    | none => rfl
  | .unknown payloads => by
    rw [writeValue, fieldsOfValue, writeFields_map]

theorem writeAll_eq (t : Types) (f : Field) :
    ∀ es, t.writeAll f es = writeFields (t.fieldsOfAll f es)
  | [] => by rw [writeAll, fieldsOfAll, writeFields]
  | v :: rest => by
    rw [writeAll, fieldsOfAll, Wire.writeFields_append, writeValue_eq t f v, writeAll_eq t f rest]

theorem writeEntries_eq (t : Types) (f : Field) (entry : Linked.MessageType) :
    ∀ es, t.writeEntries f entry es =
      writeFields (es.map fun e => (f.number.toNat, .bytes (t.entryContent entry e)))
  | [] => by rw [writeEntries, List.map_nil, writeFields]
  | (key, value) :: rest => by
    rw [writeEntries, List.map_cons, writeFields, Wire.Payload.write, entryContent,
      writeEntries_eq t f entry rest]

theorem writeEach_eq (t : Types) (type : String) :
    ∀ r, t.writeEach type r = (t.fieldsOfEach type r).map fun x => (x.1, writeFields x.2)
  | [] => by rw [writeEach, fieldsOfEach, List.map_nil]
  | (number, v) :: rest => by
    unfold writeEach fieldsOfEach
    rw [List.map_cons, writeEach_eq t type rest]
    refine List.cons_eq_cons.mpr ⟨?_, rfl⟩
    cases t.declared? type number with
    | some f =>
      have hvalue := writeValue_eq t f v
      simp only [hvalue, apply_ite writeFields, writeFields]
    | none =>
      cases t.extensionOf? type number with
      | some x =>
        have hvalue := writeValue_eq t x.field v
        cases v with
        | unknown payloads => exact congrArg (Prod.mk false) (writeFields_map _ _).symm
        | _ => simp only [hvalue, apply_ite writeFields, writeFields]
      | none =>
        cases v with
        | unknown payloads => exact congrArg (Prod.mk false) (writeFields_map _ _).symm
        | _ => rfl

end

/-- What is written of a message are the bytes of its fields. -/
theorem write_eq (t : Types) (type : String) (r : Record) :
    t.write type r = writeFields (t.fieldsOf type r) := by
  rw [write, writeEach_eq, inOrder_eq, fieldsOf]

theorem read?_write {t : Types} {type : String} {r : Record}
    (h : Message.Carriable (t.fieldsOf type r)) :
    Message.read? (t.write type r) = some (t.fieldsOf type r) := by
  rw [write_eq]
  exact Message.read?_writeFields h

/-! ### Where the fields come from -/

/-- The fields of what stands under a number, and whether a field with the number is declared. -/
def part (t : Types) (type : String) (x : Nat × Value) : Bool × Message :=
  match t.declared? type x.1, t.extensionOf? type x.1, x.2 with
  | some f, _, v => (true, if t.isSet f v then t.fieldsOfValue f v else [])
  | none, _, .unknown payloads => (false, payloads.map fun payload => (x.1, payload))
  | none, some e, v => (false, if t.isSet e.field v then t.fieldsOfValue e.field v else [])
  | none, none, _ => (false, [])

theorem fieldsOfEach_eq (t : Types) (type : String) (r : Record) :
    t.fieldsOfEach type r = r.map (t.part type) := by
  induction r with
  | nil => rfl
  | cons x rest ih =>
    unfold fieldsOfEach
    rw [List.map_cons, ih]
    rfl

/-- A field comes from a value under its number, or was kept under a number that was unknown. -/
theorem mem_part {x : Nat × Value} {y : Wire.Field} (h : y ∈ (t.part type x).2) :
    (∃ f, t.field? type x.1 = some f ∧ y ∈ t.fieldsOfValue f x.2) ∨
      ∃ payloads, x.2 = .unknown payloads ∧ ∃ p ∈ payloads, y = (x.1, p) := by
  unfold part at h
  split at h
  · next v f hf =>
    have hfield : t.field? type x.1 = some f := by rw [field?, hf, Option.some_or]
    exact .inl ⟨f, hfield, (List.mem_ite_nil_right.mp h).2⟩
  · next payloads _ hvalue =>
    obtain ⟨p, hp, rfl⟩ := List.mem_map.mp h
    exact .inr ⟨payloads, hvalue, p, hp, rfl⟩
  · next v e hnone he _ =>
    have hfield : t.field? type x.1 = some e.field := by
      rw [field?, hnone, Option.none_or, he, Option.map_some]
    exact .inl ⟨e.field, hfield, (List.mem_ite_nil_right.mp h).2⟩
  · exact absurd h List.not_mem_nil

theorem mem_declaredFirst {parts : List (Bool × Message)} {y : Wire.Field} :
    y ∈ declaredFirst parts ↔ ∃ part ∈ parts, y ∈ part.2 := by
  simp only [declaredFirst, List.mem_append, List.mem_flatMap, List.mem_filter]
  constructor
  · rintro (⟨part, ⟨hpart, -⟩, hy⟩ | ⟨part, ⟨hpart, -⟩, hy⟩) <;> exact ⟨part, hpart, hy⟩
  · rintro ⟨part, hpart, hy⟩
    cases hmarked : part.1 with
    | true => exact .inl ⟨part, ⟨hpart, hmarked⟩, hy⟩
    | false => exact .inr ⟨part, ⟨hpart, by rw [hmarked]; rfl⟩, hy⟩

theorem mem_fieldsOf {r : Record} {y : Wire.Field} :
    y ∈ t.fieldsOf type r ↔ ∃ x ∈ r, y ∈ (t.part type x).2 := by
  rw [fieldsOf, fieldsOfEach_eq, mem_declaredFirst]
  simp only [List.mem_map]
  constructor
  · rintro ⟨-, ⟨x, hx, rfl⟩, hy⟩
    exact ⟨x, hx, hy⟩
  · rintro ⟨x, hx, hy⟩
    exact ⟨_, ⟨x, hx, rfl⟩, hy⟩

end Types

/-- A field is no longer than the bytes that it is part of. -/
theorem Wire.length_write_le {m : Message} {y : Wire.Field} (h : y ∈ m) :
    (y.2.write y.1).length ≤ (writeFields m).length := by
  induction m with
  | nil => exact absurd h List.not_mem_nil
  | cons x m ih =>
    rw [writeFields, List.length_append]
    rcases List.mem_cons.mp h with rfl | h
    · exact Nat.le_add_right _ _
    · exact Nat.le_trans (ih h) (Nat.le_add_left _ _)

end GoBindings

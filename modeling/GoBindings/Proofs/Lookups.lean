/-
  GoBindings/Proofs/Lookups.lean
  ==============================
  **A chosen name depends on what is found, not on where it stands.**

  Two sets of types are alike if they find the same extensions and messages with the same fields
  (`Types.Alike`); whether a message is the entry of a map does not count. The fields of options
  choose the same name by both (`Types.Alike.choice?`).
-/
import GoBindings.Proofs.Reencoding

namespace GoBindings

open Wire (Message)

namespace Types

/-- The same extensions are found, and messages with the same fields. -/
structure Alike (t t' : Types) : Prop where
  fields? : ∀ name, (t.message? name).map (·.fields) = (t'.message? name).map (·.fields)
  extensionOf? : ∀ type number, t.extensionOf? type number = t'.extensionOf? type number

namespace Alike

variable {t t' : Types} (h : t.Alike t')
include h

theorem field? (type : String) (number : Nat) : t.field? type number = t'.field? type number := by
  have hdeclared : ∀ t : Types, t.declared? type number =
      ((t.message? type).map (·.fields)).bind (·.find? (·.number == (number : Int))) := by
    intro t
    rw [Option.bind_map]
    rfl
  rw [Types.field?, Types.field?, hdeclared, hdeclared, h.fields?, h.extensionOf?]

theorem last (type : String) (number : Nat) (held : Option Wire.Payload) (m : Message) :
    t.last type number held m = t'.last type number held m := by
  simp only [Types.last, h.field?]

theorem textIn? (inner : String) (m : Message) : t.textIn? inner m = t'.textIn? inner m := by
  have hfields := h.fields? inner
  unfold Types.textIn?
  cases htype : t.message? inner with
  | none =>
    rw [htype, Option.map_none, eq_comm, Option.map_eq_none_iff] at hfields
    rw [hfields]
    rfl
  | some type =>
    rw [htype] at hfields
    obtain ⟨type', htype', hsame⟩ := Option.map_eq_some_iff.mp hfields.symm
    simp only [htype', Option.bind_eq_bind, Option.bind_some, hsame]
    cases type.fields.find? (·.name == "name") with
    | none => rfl
    | some f =>
      simp only [Option.bind_some, h.last]
      split
      case isTrue hkind =>
        have hdefault : t.defaultPayload? f = t'.defaultPayload? f :=
          defaultPayload?_eq_of_string hkind.1
        rw [hdefault]
      case isFalse => rfl

theorem choice? (number : Nat) (type : String) (m : Message) :
    t.choice? number type m = t'.choice? number type m := by
  simp only [Types.choice?, h.field?, h.textIn?]

end Alike

end Types

/-! ### Pools -/

/-- The same declarations are found. -/
structure Pool.Alike (p q : Pool) : Prop where
  types : p.types.Alike q.types
  extension? : ∀ name, p.extension? name = q.extension? name

theorem Pool.Alike.typesFor {p q : Pool} (h : p.Alike q) (type : String) :
    (p.typesFor type).Alike (q.typesFor type) := by
  have hfields : (p.message? type).map (·.fields) = (q.message? type).map (·.fields) :=
    h.types.fields? type
  have hsome : (p.message? type).isSome = (q.message? type).isSome := by
    have hknown := congrArg Option.isSome hfields
    rwa [Option.isSome_map, Option.isSome_map] at hknown
  rw [Pool.typesFor, Pool.typesFor, hsome]
  split
  · exact h.types
  · exact ⟨fun _ => rfl, fun _ _ => rfl⟩

end GoBindings

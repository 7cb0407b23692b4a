/-
  GoBindings/Proofs/EarlyOptions.lean
  ===================================
  **Options that are read before their type is declared.**

  The options that the language itself gives services and methods hold one number each, but for
  settings. Types that know no more of a message (`Types.OneNumbers`) keep everything else as it
  was found, and write a number where one was found (`Types.numberFor_of_mem_fieldsOf`). So
  whatever types take the message take again what is written of it, and it chooses the same name.
-/
import GoBindings.Proofs.Reencoding

namespace GoBindings

open Linked (Field Kind)
open Wire (Payload Message)

namespace Types

variable {t t' : Types} {n k : Nat} {type : String} {f : Field} {r : Record} {m : Message}

/-! ### One number -/

/-- A field that holds one number, and is no member of a oneof. -/
structure IsOneNumber (f : Field) : Prop where
  repeated : f.repeated = false
  rivals : f.rivals = []
  varint : ∃ scalar, f.kind.scalar? = some scalar ∧ scalar.tag = .varint

/-- Every field that types know of a message holds one number. -/
def OneNumbers (t : Types) (type : String) (m : Message) : Prop :=
  ∀ x ∈ m, ∀ f, t.field? type x.1 = some f → IsOneNumber f

theorem IsOneNumber.takesField_iff (h : IsOneNumber f) {takes : String → Message → Bool}
    {p : Payload} : t.takesField takes n f p ↔ ∃ a, p = .varint a := by
  obtain ⟨scalar, hscalar, htag⟩ := h.varint
  rw [takesField_singular h.repeated, takesOne_scalar (Option.isSome_of_eq_some hscalar),
    Kind.carries, hscalar, Option.any_some]
  constructor
  · intro hsome
    obtain ⟨q, hq⟩ := Option.isSome_iff_exists.mp hsome
    have hp := tag_of_normal? hq
    rw [htag] at hp
    cases p with
    | varint a => exact ⟨a, rfl⟩
    | _ => cases hp
  · rintro ⟨a, rfl⟩
    cases scalar <;> first | rfl | cases htag

/-- Whether a field takes a number does not depend on the number. -/
theorem takesField_varint {takes : String → Message → Bool} (a b : Nat) :
    t.takesField takes n f (.varint a) = t.takesField takes n f (.varint b) := by
  have hone : takesOne takes f.kind (.varint a) = takesOne takes f.kind (.varint b) := by
    cases f.kind with
    | scalar type =>
      cases type <;> simp [takesOne, Kind.carries, Kind.scalar?, Descriptor.Scalar.normal?]
    | enumeration => simp [takesOne, Kind.carries, Kind.scalar?, Descriptor.Scalar.normal?]
    | message => rfl
    | group => rfl
  have hpacked : f.kind.packed? (.varint a) = f.kind.packed? (.varint b) := rfl
  unfold takesField
  rw [hone, hpacked]
  rfl

theorem admits_varint {takes : String → Message → Bool} (number a b : Nat) :
    t.admits takes n type (number, .varint a) = t.admits takes n type (number, .varint b) := by
  unfold admits
  simp only [takesField_varint a b]
  rfl

/-! ### What is held of the message -/

/-- What was found in a message, or a number where one was found. -/
def NumberFor (m : Message) (y : Wire.Field) : Prop :=
  y ∈ m ∨ ∃ a b, y.2 = .varint a ∧ a < 2 ^ 64 ∧ (y.1, .varint b) ∈ m

/-- What a record holds of a message: what is unknown as it was found, and numbers. -/
def HoldsNumbers (t : Types) (type : String) (m : Message) (number : Nat) (v : Value) : Prop :=
  match t.field? type number with
  | none => ∃ payloads, v = .unknown payloads ∧ ∀ p ∈ payloads, (number, p) ∈ m
  | some _ => ∃ p, v = .scalar p ∧ NumberFor m (number, p)

theorem holdsNumbers_absorb (ht : t.Numbered) (hone : t.OneNumbers type m) {x : Wire.Field}
    (hx : x ∈ m) (hcarriable : x.2.Carriable) (htakes : t.admits (t.takes n) n type x)
    {gather : String → Record → Message → Record}
    (hr : ∀ y ∈ r, t.HoldsNumbers type m y.1 y.2) :
    ∀ y ∈ t.absorb gather type r x, t.HoldsNumbers type m y.1 y.2 := by
  intro y hy
  unfold absorb at hy
  unfold admits at htakes
  cases hfield : t.field? type x.1 with
  | some f =>
    have hnumber := toNat_of_field? ht hfield
    have hf := hone x hx f hfield
    rw [hfield] at hy htakes
    rcases mem_of_mem_assign hy with rfl | hy
    · obtain ⟨scalar, hscalar, htag⟩ := hf.varint
      obtain ⟨b, hb⟩ := hf.takesField_iff.mp htakes
      rw [hnumber, gatherField_singular hf.repeated, hb,
        gatherOne_of_scalar (Option.isSome_of_eq_some hscalar), hscalar, HoldsNumbers, hfield]
      refine ⟨_, rfl, .inr ?_⟩
      obtain ⟨q, hq⟩ : ∃ q, scalar.normal? (.varint b) = some q := by
        cases scalar <;> first | exact ⟨_, rfl⟩ | exact nomatch htag
      rw [hb] at hcarriable
      obtain ⟨hq', hsome⟩ := Descriptor.Scalar.normal?_eq_some hq hcarriable
      obtain ⟨q', hqq⟩ := Option.isSome_iff_exists.mp hsome
      have hvarint := tag_of_normal? hqq
      rw [htag] at hvarint
      rw [Option.bind_some, hq, Option.getD_some]
      cases hq' with
      | @varint a ha => exact ⟨a, b, rfl, ha, hb ▸ hx⟩
      | _ => exact nomatch hvarint
    · exact hr y hy
  | none =>
    rw [hfield] at hy
    rcases Record.mem_of_mem_addUnknown hy with ⟨payloads, rfl, hold⟩ | hy
    · have hpayloads : ∀ p ∈ payloads, (x.1, p) ∈ m := by
        rcases hold with rfl | hold
        · exact List.forall_mem_nil _
        · have hat := hr _ hold
          rw [HoldsNumbers, hfield] at hat
          obtain ⟨payloads', heq, hall⟩ := hat
          obtain rfl := Value.unknown.inj heq
          exact hall
      rw [HoldsNumbers, hfield]
      refine ⟨_, rfl, fun p hp => ?_⟩
      rcases List.mem_append.mp hp with hp | hp
      · exact hpayloads p hp
      · obtain rfl := List.mem_singleton.mp hp
        exact hx
    · exact hr y hy

theorem holdsNumbers_gather (ht : t.Numbered) (hone : t.OneNumbers type m)
    (hm : Message.Carriable m) (htakes : t.takes (n + 1) type m) :
    ∀ y ∈ t.gather (n + 1) type [] m, t.HoldsNumbers type m y.1 y.2 :=
  gather_induction (motive := fun r => ∀ y ∈ r, t.HoldsNumbers type m y.1 y.2)
    (fun x hx hr => holdsNumbers_absorb ht hone hx (hm x hx).2
      (List.all_eq_true.mp htakes x hx) hr) (n + 1) (List.forall_mem_nil _)

/-! ### What is written of it -/

variable (ht : t.Numbered) (hone : t.OneNumbers type m) (hm : Message.Carriable m)
  (htakes : t.takes (n + 1) type m)
include ht hone hm htakes

theorem numberFor_of_mem_fieldsOf :
    ∀ y ∈ t.fieldsOf type (t.gather (n + 1) type [] m), NumberFor m y := by
  intro y hy
  obtain ⟨x, hx, hy⟩ := mem_fieldsOf.mp hy
  have hholds := holdsNumbers_gather ht hone hm htakes x hx
  unfold HoldsNumbers at hholds
  cases hfield : t.field? type x.1 with
  | some f =>
    rw [hfield] at hholds
    obtain ⟨p, hvalue, hnumber⟩ := hholds
    rcases mem_part hy with ⟨f', hf', hy⟩ | ⟨payloads, hunknown, -⟩
    · rw [hvalue] at hy
      unfold fieldsOfValue at hy
      rw [List.mem_singleton.mp hy, toNat_of_field? ht hf']
      exact hnumber
    · exact nomatch hvalue.symm.trans hunknown
  | none =>
    rw [hfield] at hholds
    obtain ⟨payloads, hvalue, hpayloads⟩ := hholds
    rcases mem_part hy with ⟨f', hf', -⟩ | ⟨payloads', hunknown, p, hp, rfl⟩
    · exact nomatch hfield.symm.trans hf'
    · obtain rfl := Value.unknown.inj (hvalue.symm.trans hunknown)
      exact .inl (hpayloads p hp)

/-- Types that take a message take what is written of it, if little of it was known. -/
theorem takes_fieldsOf_oneNumbers (htakes' : t'.takes (n + 1) type m) :
    Message.Carriable (t.fieldsOf type (t.gather (n + 1) type [] m)) ∧
      t'.takes (n + 1) type (t.fieldsOf type (t.gather (n + 1) type [] m)) := by
  have hadmits := List.all_eq_true.mp htakes'
  have hfields : ∀ y ∈ t.fieldsOf type (t.gather (n + 1) type [] m),
      (Wire.IsNumber y.1 ∧ y.2.Carriable) ∧ t'.admits (t'.takes n) n type y := by
    intro y hy
    rcases numberFor_of_mem_fieldsOf ht hone hm htakes y hy with hy | ⟨a, b, hvarint, ha, hb⟩
    · exact ⟨hm y hy, hadmits y hy⟩
    · obtain ⟨number, p⟩ := y
      obtain rfl : p = .varint a := hvarint
      refine ⟨⟨(hm _ hb).1, .varint ha⟩, ?_⟩
      rw [admits_varint number a b]
      exact hadmits _ hb
  exact ⟨fun y hy => (hfields y hy).1, List.all_eq_true.mpr fun y hy => (hfields y hy).2⟩

omit hm in
/-- What is written of a message of which little was known chooses the same name. -/
theorem choice?_fieldsOf_oneNumbers (htakes' : t'.takes (n + 1) type m) :
    t'.choice? k type (t.fieldsOf type (t.gather (n + 1) type [] m)) = t'.choice? k type m := by
  unfold choice?
  cases hlater : t'.field? type k with
  | none => rfl
  | some f =>
    simp only [Option.bind_eq_bind, Option.bind_some]
    cases hkind : f.kind.message? with
    | none => rfl
    | some inner =>
      simp only [Option.bind_some]
      cases hrepeated : f.repeated with
      | true => simp
      | false =>
        cases hfield : t.field? type k with
        | none =>
          have hrivals : t.Unrivaled type k m := fun x hx g hg => by
            rw [(hone x hx g hg).rivals]
            exact List.not_mem_nil
          rw [payloads_fieldsOf_unknown ht hfield hrivals]
        | some g =>
          -- a number is not a message
          have hnone : ∀ a, (k, Payload.varint a) ∉ m := by
            intro a ha
            have hadmits := List.all_eq_true.mp htakes' _ ha
            simp only [admits, hlater, takesField_singular hrepeated] at hadmits
            cases hk : f.kind with
            | message | group =>
              rw [hk] at hadmits
              cases hadmits
            | scalar | enumeration =>
              rw [hk] at hkind
              cases hkind
          have hread : Message.payloads m k = [] := by
            refine payloads_eq_nil fun x hx heq => ?_
            obtain ⟨number, p⟩ := x
            obtain rfl : number = k := heq
            have hadmits := List.all_eq_true.mp htakes _ hx
            rw [admits, hfield] at hadmits
            obtain ⟨a, rfl⟩ := (hone _ hx g hfield).takesField_iff.mp hadmits
            exact hnone a hx
          have hwritten : Message.payloads
              (t.fieldsOf type (t.gather (n + 1) type [] m)) k = [] := by
            refine payloads_eq_nil fun y hy heq => ?_
            obtain ⟨x, hx, hsame⟩ := fst_of_mem_fieldsOf_gather ht hy
            have hmem : x.2 ∈ Message.payloads m k :=
              List.mem_map.mpr ⟨x, List.mem_filter.mpr ⟨hx, beq_iff_eq.mpr (hsame.trans heq)⟩, rfl⟩
            rw [hread] at hmem
            exact absurd hmem List.not_mem_nil
          rw [hread, hwritten]

end Types

end GoBindings

/-
  GoBindings/Proofs/Rereading.lean
  ================================
  **What is written of a message is taken again, also by types that know more.**

  Types grow if they have every field that there was, carried as before (`Types.Grows`). Fields
  that both the old and the new types take are read by the old ones to values of which all that
  is written is taken by the new ones (`Types.Holds`): each field keeps this, at every level
  (`Types.holds_gather`), and the bytes of such a record parse to fields that are taken
  (`Types.takes_fieldsOf`).
-/
import GoBindings.Proofs.Gathering
import GoBindings.Proofs.WrittenFields

namespace GoBindings

open Linked (Field Kind)
open Wire (Payload Message IsNumber)

/-! ### Normal forms -/

theorem Wire.bits64_lt (n : Int) : bits64 n < 2 ^ 64 := by
  unfold bits64
  omega

theorem Descriptor.Scalar.normal?_eq_some {type : Descriptor.Scalar} {p q : Payload}
    (h : type.normal? p = some q) (hp : p.Carriable) : q.Carriable ∧ (type.normal? q).isSome := by
  cases hp with
  | varint hn =>
    cases type with
    | int64 | uint64 | sint64 =>
      obtain rfl := Option.some.inj h
      exact ⟨.varint hn, rfl⟩
    | uint32 | sint32 =>
      obtain rfl := Option.some.inj h
      exact ⟨.varint (by omega), rfl⟩
    | int32 =>
      obtain rfl := Option.some.inj h
      exact ⟨.varint (Wire.bits64_lt _), rfl⟩
    | bool =>
      obtain rfl := Option.some.inj h
      exact ⟨.varint (by split <;> decide), rfl⟩
    | _ => exact nomatch h
  | fixed64 hbits =>
    cases type <;> first
      | (obtain rfl := Option.some.inj h; exact ⟨.fixed64 hbits, rfl⟩)
      | exact nomatch h
  | fixed32 hbits =>
    cases type <;> first
      | (obtain rfl := Option.some.inj h; exact ⟨.fixed32 hbits, rfl⟩)
      | exact nomatch h
  | bytes hlength =>
    cases type with
    | string =>
      obtain ⟨htext, heq⟩ := Option.ite_none_right_eq_some.mp h
      obtain rfl := Option.some.inj heq
      exact ⟨.bytes hlength, by simp [normal?, htext]⟩
    | bytes =>
      obtain rfl := Option.some.inj h
      exact ⟨.bytes hlength, rfl⟩
    | _ => exact nomatch h
  | group => cases type <;> exact nomatch h

/-- Zero or nothing is a value of each type. -/
theorem Descriptor.Scalar.normal?_zero (type : Descriptor.Scalar) :
    type.zero.Carriable ∧ (type.normal? type.zero).isSome := by
  cases type <;> first
    | exact ⟨.varint (by decide), rfl⟩
    | exact ⟨.fixed64 (by decide), rfl⟩
    | exact ⟨.fixed32 (by decide), rfl⟩
    | exact ⟨.bytes (by decide), rfl⟩

namespace Types

variable {t t' : Types} {n : Nat} {type : String} {f : Field} {kind : Kind} {v : Value}
  {p : Payload} {r : Record} {m : Message}

/-- Every field that there was is there, and the messages that it holds have the type that they
    had. -/
structure Grows (t t' : Types) : Prop where
  field? : ∀ {type n f}, t.field? type n = some f → t'.field? type n = some f
  message? : ∀ {type n f inner}, t.field? type n = some f → f.kind.message? = some inner →
    t'.message? inner = t.message? inner
  packed : ∀ {type n f}, t.field? type n = some f → f.packed → f.kind.isPackable

theorem Grows.entryType? (h : t.Grows t') {number : Nat} (hf : t.field? type number = some f) :
    t'.entryType? f = t.entryType? f := by
  unfold Types.entryType?
  cases hinner : f.kind.message? with
  | none => rfl
  | some inner => rw [Option.bind_some, Option.bind_some, h.message? hf hinner]

theorem Grows.entryFields? (h : t.Grows t') {number : Nat}
    (hf : t.field? type number = some f) : t'.entryFields? f = t.entryFields? f := by
  rw [Types.entryFields?, Types.entryFields?, h.entryType? hf]

/-! ### Values that are taken again -/

section

variable (t t' : Types) (holds : String → Record → Prop) (n : Nat)

/-- One value of a kind; `holds` decides about messages. -/
def HoldsOne (kind : Kind) : Value → Prop
  | .scalar p => kind.carries p ∧ p.Carriable
  | .message r => ∃ type, kind.message? = some type ∧ holds type r
  | _ => False

/-- The value of a field. -/
def HoldsField (f : Field) (v : Value) : Prop :=
  match t.entryFields? f with
  | some none => False
  | some (some (key, value)) => makesEntries n key value ∧
    ∃ entries, v = .map entries ∧
      ∀ e ∈ entries, HoldsOne holds key.kind e.1 ∧ HoldsOne holds value.kind e.2
  | none =>
    if f.repeated then ∃ elements, v = .list elements ∧ ∀ e ∈ elements, HoldsOne holds f.kind e
    else HoldsOne holds f.kind v

/-- What stands under a number. -/
def HoldsAt (type : String) (number : Nat) (v : Value) : Prop :=
  match t.field? type number with
  | some f => HoldsField t holds n f v
  | none => ∃ payloads, v = .unknown payloads ∧
    ∀ p ∈ payloads, p.Carriable ∧ t'.admits (t'.takes n) n type (number, p)

end

/-- Whatever is written of a record is taken by other types, in so many levels of messages. -/
def Holds (t t' : Types) : Nat → String → Record → Prop
  | 0, _, _ => False
  | n + 1, type, r => ∀ x ∈ r, IsNumber x.1 ∧ HoldsAt t t' (Holds t t' n) n type x.1 x.2

theorem holds_nil (hn : n ≠ 0) : Holds t t' n type [] := by
  cases n with
  | zero => exact absurd rfl hn
  | succ n => exact fun x hx => absurd hx List.not_mem_nil

/-- A value that messages can be added to. -/
theorem HoldsOne.fields (h : HoldsOne (Holds t t' n) kind v) (hkind : kind.message? = some type)
    (hn : n ≠ 0) : Holds t t' n type v.fields := by
  cases v with
  | message r =>
    obtain ⟨type', htype, hr⟩ := h
    obtain rfl := Option.some.inj (hkind.symm.trans htype)
    exact hr
  | _ => exact holds_nil hn

theorem holdsOne_scalar {holds : String → Record → Prop} (h : kind.carries p) (hp : p.Carriable) :
    HoldsOne holds kind (.scalar ((kind.scalar?.bind (·.normal? p)).getD p)) := by
  obtain ⟨type, htype, hsome⟩ := (Option.any_eq_true _ _).mp h
  obtain ⟨q, hq⟩ := Option.isSome_iff_exists.mp hsome
  obtain ⟨hcarriable, hnormal⟩ := Descriptor.Scalar.normal?_eq_some hq hp
  rw [htype, Option.bind_some, hq, Option.getD_some]
  exact ⟨(Option.any_eq_true _ _).mpr ⟨type, htype, hnormal⟩, hcarriable⟩

/-- A field of an entry starts with a value that is taken. -/
theorem holdsOne_default (hrepeated : f.repeated = false) (hdefault : f.defaultValue = none)
    (hlevel : f.kind.message?.isNone ∨ n ≠ 0) : HoldsOne (Holds t t' n) f.kind (t.default f) := by
  unfold default defaultPayload?
  rw [entryType?_of_singular hrepeated, hrepeated]
  cases hkind : f.kind with
  | scalar type =>
    obtain ⟨hcarriable, hnormal⟩ := type.normal?_zero
    rw [hdefault]
    exact ⟨hnormal, hcarriable⟩
  | enumeration fullName => exact ⟨rfl, .varint (Wire.bits64_lt _)⟩
  | message type =>
    rw [hkind] at hlevel
    exact ⟨type, rfl, holds_nil (hlevel.resolve_left (by simp [Kind.message?]))⟩
  | group type =>
    rw [hkind] at hlevel
    exact ⟨type, rfl, holds_nil (hlevel.resolve_left (by simp [Kind.message?]))⟩

/-- The key and the value of an entry start with values that are taken. -/
theorem holdsOne_defaults {key value : Field} (h : makesEntries n key value) :
    HoldsOne (Holds t t' n) key.kind (t.default key) ∧
      HoldsOne (Holds t t' n) value.kind (t.default value) := by
  simp only [makesEntries, Bool.and_eq_true, Bool.not_eq_true', Option.isNone_iff_eq_none,
    Bool.or_eq_true, decide_eq_true_eq] at h
  obtain ⟨⟨⟨⟨⟨hscalar, hkey⟩, hkeyDefault⟩, hvalue⟩, hvalueDefault⟩, hlevel⟩ := h
  have hkind : key.kind.message? = none := by
    cases hk : key.kind <;> first | rfl | (rw [hk] at hscalar; cases hscalar)
  exact ⟨holdsOne_default hkey hkeyDefault (.inl (by rw [hkind]; rfl)),
    holdsOne_default hvalue hvalueDefault
      (hlevel.imp (fun h => by rw [h]; rfl) fun h => Nat.ne_of_gt h)⟩

theorem holdsOne_of_readPacked? {holds : String → Record → Prop} {fuel : Nat}
    {bytes : List UInt8} {more : List Value} (h : readPacked? kind fuel bytes = some more) :
    ∀ e ∈ more, HoldsOne holds kind e := by
  induction fuel generalizing bytes more with
  | zero =>
    cases bytes with
    | nil =>
      obtain rfl := Option.some.inj h
      exact List.forall_mem_nil _
    | cons b bytes => exact nomatch h
  | succ fuel ih =>
    cases bytes with
    | nil =>
      obtain rfl := Option.some.inj h
      exact List.forall_mem_nil _
    | cons b bytes =>
      obtain ⟨type, htype, h⟩ := Option.bind_eq_some_iff.mp h
      obtain ⟨⟨v, rest⟩, hread, h⟩ := Option.bind_eq_some_iff.mp h
      obtain ⟨vs, hvs, rfl⟩ := Option.map_eq_some_iff.mp h
      refine List.forall_mem_cons.mpr ⟨?_, ih hvs⟩
      obtain ⟨type', htype', hread⟩ := Option.bind_eq_some_iff.mp hread
      obtain ⟨-, hread⟩ := Option.ite_none_right_eq_some.mp hread
      obtain ⟨⟨p, after⟩, hpayload, hread⟩ := Option.bind_eq_some_iff.mp hread
      obtain ⟨q, hq, hread⟩ := Option.bind_eq_some_iff.mp hread
      obtain ⟨rfl, -⟩ := Prod.mk.inj (Option.some.inj hread)
      obtain ⟨hcarriable, hnormal⟩ :=
        Descriptor.Scalar.normal?_eq_some hq (Wire.readPayload?_eq_some hpayload).1
      exact ⟨(Option.any_eq_true _ _).mpr ⟨type', htype', hnormal⟩, hcarriable⟩

theorem holdsOne_of_packed? {holds : String → Record → Prop} {more : List Value}
    (h : kind.packed? p = some more) : ∀ e ∈ more, HoldsOne holds kind e := by
  obtain ⟨-, content, -, hmore⟩ := packed?_eq_some h
  exact holdsOne_of_readPacked? hmore

/-! ### What is gathered holds -/

/-- Fields that are taken by both keep what holds, in so many levels. -/
def Keeps (t t' : Types) (n : Nat) : Prop :=
  ∀ {type : String} {r : Record} {m : Message}, Holds t t' n type r → Message.Carriable m →
    t.takes n type m = true → t'.takes n type m = true → Holds t t' n type (t.gather n type r m)

namespace Keeps

variable (h : t.Keeps t' n)
include h

theorem holdsOne (hp : p.Carriable) (htakes : takesOne (t.takes n) kind p)
    (htakes' : takesOne (t'.takes n) kind p)
    (hv : ∀ type, kind.message? = some type → n ≠ 0 → Holds t t' n type v.fields) :
    HoldsOne (Holds t t' n) kind (gatherOne (t.gather n) kind v p) := by
  cases kind with
  | scalar | enumeration => exact holdsOne_scalar htakes hp
  | message type =>
    obtain ⟨content, m, rfl, hm, hmessage⟩ := takesOne_message htakes
    obtain ⟨content', m', heq, hm', hmessage'⟩ := takesOne_message htakes'
    obtain rfl := Payload.bytes.inj heq
    obtain rfl := Option.some.inj (hm.symm.trans hm')
    have hstart := hv type rfl (ne_zero_of_takes hmessage)
    have hcarriable := (Message.read?_eq_some_iff.mp hm).carriable
    simp only [gatherOne, Payload.bytes?, Option.bind_some, hm, Option.getD_some]
    exact ⟨type, rfl, h hstart hcarriable hmessage hmessage'⟩
  | group type =>
    obtain ⟨m, rfl, hmessage⟩ := takesOne_group htakes
    obtain ⟨m', heq, hmessage'⟩ := takesOne_group htakes'
    obtain rfl := Payload.group.inj heq
    have hstart := hv type rfl (ne_zero_of_takes hmessage)
    have hcarriable : Message.Carriable m := by
      cases hp with
      | group hnumbers hpayloads => exact fun x hx => ⟨hnumbers x hx, hpayloads x hx⟩
    simp only [gatherOne, Payload.group?, Option.getD_some]
    exact ⟨type, rfl, h hstart hcarriable hmessage hmessage'⟩

/-- The key and the value of an entry, with one field after the other. -/
theorem holdsEntry {key value : Field} {e : Value × Value} (hkey : key.kind.scalar?.isSome)
    (hm : Message.Carriable m) (htakes : ∀ x ∈ m, takesPart (t.takes n) n key value x = true)
    (htakes' : ∀ x ∈ m, takesPart (t'.takes n) n key value x = true)
    (he : HoldsOne (Holds t t' n) key.kind e.1 ∧ HoldsOne (Holds t t' n) value.kind e.2) :
    HoldsOne (Holds t t' n) key.kind (gatherEntry (t.gather n) key value e m).1 ∧
      HoldsOne (Holds t t' n) value.kind (gatherEntry (t.gather n) key value e m).2 := by
  induction m generalizing e with
  | nil => exact he
  | cons x m ih =>
    obtain ⟨hx, hm⟩ := List.forall_mem_cons.mp hm
    obtain ⟨hpart, htakes⟩ := List.forall_mem_cons.mp htakes
    obtain ⟨hpart', htakes'⟩ := List.forall_mem_cons.mp htakes'
    rw [gatherEntry, List.foldl_cons, ← gatherEntry]
    refine ih hm htakes htakes' ?_
    unfold takesPart at hpart hpart'
    unfold gatherPart
    split at hpart
    case isTrue hone =>
      rw [if_pos hone, gatherOne_of_scalar hkey]
      exact ⟨holdsOne_scalar hpart hx.2, he.2⟩
    case isFalse hone =>
      rw [if_neg hone] at hpart' ⊢
      split at hpart
      case isTrue htwo =>
        rw [if_pos htwo] at hpart' ⊢
        exact ⟨he.1, h.holdsOne hx.2 hpart hpart' fun type htype hn => he.2.fields htype hn⟩
      case isFalse htwo =>
        rw [if_neg htwo]
        exact he

/-- What a field holds, or starts with, with one payload more. -/
theorem holdsField (hentry : t'.entryFields? f = t.entryFields? f) (hp : p.Carriable)
    (htakes : t.takesField (t.takes n) n f p) (htakes' : t'.takesField (t'.takes n) n f p)
    (hv : HoldsField t (Holds t t' n) n f v ∨ v = t.default f) :
    HoldsField t (Holds t t' n) n f (t.gatherField (t.gather n) f v p) := by
  unfold HoldsField at hv ⊢
  unfold gatherField
  cases hfields : t.entryFields? f with
  | some pair =>
    obtain ⟨key, value, content, m, rfl, hmakes, rfl, hm, hparts⟩ := takesField_entry hfields htakes
    obtain ⟨key', value', content', m', hpair, -, hcontent, hm', hparts'⟩ :=
      takesField_entry (hentry.trans hfields) htakes'
    obtain ⟨rfl, rfl⟩ := Prod.mk.inj (Option.some.inj hpair)
    obtain rfl := Payload.bytes.inj hcontent
    obtain rfl := Option.some.inj (hm.symm.trans hm')
    obtain ⟨entry, htype, -⟩ := entryFields?_eq_some.mp hfields
    rw [hfields] at hv
    have hentries : ∀ e ∈ v.entries,
        HoldsOne (Holds t t' n) key.kind e.1 ∧ HoldsOne (Holds t t' n) value.kind e.2 := by
      rcases hv with ⟨-, entries, rfl, hentries⟩ | rfl
      · exact hentries
      · rw [default, htype]
        exact List.forall_mem_nil _
    have hnew := h.holdsEntry (e := (t.default key, t.default value)) (key_of_makesEntries hmakes)
      (Message.read?_eq_some_iff.mp hm).carriable hparts hparts' (holdsOne_defaults hmakes)
    simp only [Payload.bytes?, Option.bind_some, hm, Option.getD_some]
    refine ⟨hmakes, _, rfl, fun e he => ?_⟩
    rcases List.mem_append.mp he with he | he
    · exact hentries e (List.mem_filter.mp he).1
    · obtain rfl := List.mem_singleton.mp he
      exact hnew
  | none =>
    rw [takesField_none hfields, Bool.or_eq_true, Bool.and_eq_true] at htakes
    rw [takesField_none (hentry.trans hfields), Bool.or_eq_true, Bool.and_eq_true] at htakes'
    have hentry : t.entryType? f = none := Option.map_eq_none_iff.mp hfields
    rw [hfields] at hv
    cases hrepeated : f.repeated with
    | false =>
      rw [hrepeated] at htakes htakes' hv
      refine h.holdsOne hp (htakes.resolve_right (by simp)) (htakes'.resolve_right (by simp)) ?_
      intro type htype hn
      rcases hv with hv | rfl
      · exact HoldsOne.fields hv htype hn
      · rw [fields_default]
        exact holds_nil hn
    | true =>
      rw [hrepeated] at hv
      have helements : ∀ e ∈ v.elements, HoldsOne (Holds t t' n) f.kind e := by
        rcases hv with ⟨elements, rfl, helements⟩ | rfl
        · exact helements
        · rw [default, hentry, hrepeated]
          exact List.forall_mem_nil _
      simp only [if_true]
      cases hpacked : f.kind.packed? p with
      | some more =>
        refine ⟨_, rfl, fun e he => ?_⟩
        rcases List.mem_append.mp he with he | he
        · exact helements e he
        · exact holdsOne_of_packed? hpacked e he
      | none =>
        have hone := h.holdsOne hp (v := .message []) (htakes.resolve_right (by simp [hpacked]))
          (htakes'.resolve_right (by simp [hpacked])) fun type _ hn => holds_nil hn
        refine ⟨_, rfl, fun e he => ?_⟩
        rcases List.mem_append.mp he with he | he
        · exact helements e he
        · obtain rfl := List.mem_singleton.mp he
          exact hone

/-- A record with one field more. -/
theorem holds_absorb (ht : t.Numbered) (hgrows : t.Grows t') {x : Wire.Field}
    (hr : Holds t t' (n + 1) type r) (hx : IsNumber x.1 ∧ x.2.Carriable)
    (hadmits : t.admits (t.takes n) n type x) (hadmits' : t'.admits (t'.takes n) n type x) :
    Holds t t' (n + 1) type (t.absorb (t.gather n) type r x) := by
  unfold absorb
  unfold admits at hadmits
  cases hfield : t.field? type x.1 with
  | some f =>
    have hnumber := toNat_of_field? ht hfield
    rw [hfield] at hadmits
    rw [admits, hgrows.field? hfield] at hadmits'
    have hv : HoldsField t (Holds t t' n) n f (t.valueIn r f) ∨ t.valueIn r f = t.default f := by
      rw [valueIn, hnumber]
      cases hvalue : r.value? x.1 with
      | none => exact .inr rfl
      | some v =>
        have hat := (hr _ (Record.mem_of_value? hvalue)).2
        rw [HoldsAt, hfield] at hat
        exact .inl hat
    have hnew := h.holdsField (hgrows.entryFields? hfield) hx.2 hadmits hadmits' hv
    intro y hy
    rcases mem_of_mem_assign hy with rfl | hy
    · refine ⟨by rw [hnumber]; exact hx.1, ?_⟩
      rw [HoldsAt, hnumber, hfield]
      exact hnew
    · exact hr y hy
  | none =>
    intro y hy
    rcases Record.mem_of_mem_addUnknown hy with ⟨payloads, rfl, hold⟩ | hy
    · have hpayloads : ∀ p ∈ payloads,
          p.Carriable ∧ t'.admits (t'.takes n) n type (x.1, p) := by
        rcases hold with rfl | hold
        · exact List.forall_mem_nil _
        · have hat := (hr _ hold).2
          rw [HoldsAt, hfield] at hat
          obtain ⟨payloads', heq, hall⟩ := hat
          obtain rfl := Value.unknown.inj heq
          exact hall
      refine ⟨hx.1, ?_⟩
      rw [HoldsAt, hfield]
      refine ⟨_, rfl, fun p hp => ?_⟩
      rcases List.mem_append.mp hp with hp | hp
      · exact hpayloads p hp
      · obtain rfl := List.mem_singleton.mp hp
        exact ⟨hx.2, hadmits'⟩
    · exact hr y hy

theorem succ (ht : t.Numbered) (hgrows : t.Grows t') : t.Keeps t' (n + 1) := by
  intro type r m hr hm htakes htakes'
  induction m generalizing r with
  | nil => exact hr
  | cons x m ih =>
    obtain ⟨hx, hm⟩ := List.forall_mem_cons.mp hm
    rw [takes, List.all_cons, Bool.and_eq_true] at htakes htakes'
    rw [gather, List.foldl_cons, ← gather]
    exact ih (h.holds_absorb ht hgrows hr hx htakes.1 htakes'.1) hm htakes.2 htakes'.2

end Keeps

/-- What is gathered of fields that both take is taken again. -/
theorem keeps (ht : t.Numbered) (hgrows : t.Grows t') (n : Nat) : t.Keeps t' n := by
  induction n with
  | zero =>
    intro type r m hr
    exact hr.elim
  | succ n ih => exact ih.succ ht hgrows

/-! ### What holds is taken -/

/-- What is written of a record that holds, if it is not too long, can be carried and is taken. -/
def Retakes (t t' : Types) (n : Nat) : Prop :=
  ∀ {type : String} {r : Record}, Holds t t' n type r → (t.write type r).length < 2 ^ 64 →
    Message.Carriable (t.fieldsOf type r) ∧ t'.takes n type (t.fieldsOf type r) = true

theorem length_le_write_bytes (number : Nat) (content : List UInt8) :
    content.length ≤ (Payload.write number (.bytes content)).length := by
  rw [Payload.write, Wire.writeBytes, List.length_append]
  exact Nat.le_add_left _ _

theorem length_le_write_group (number : Nat) (fields : Message) :
    (Wire.writeFields fields).length ≤ (Payload.write number (.group fields)).length := by
  rw [Payload.write, List.length_append, List.length_append]
  omega

theorem bare_ne_nil (hplain : p.tag ≠ .groupStart) : p.bare ≠ [] := by
  have hvarint (n : Nat) : Wire.writeVarint n ≠ [] := by
    rw [Wire.writeVarint]
    split <;> exact List.cons_ne_nil _ _
  cases p with
  | varint n => exact hvarint n
  | bytes content => exact List.append_ne_nil_of_left_ne_nil (hvarint _) _
  | group => exact absurd rfl hplain
  | fixed64 => exact List.cons_ne_nil _ _
  | fixed32 => exact List.cons_ne_nil _ _

/-- Values that are written together are read again. -/
theorem readPacked?_bare {holds : String → Record → Prop} {elements : List Value} {fuel : Nat}
    (helements : ∀ e ∈ elements, HoldsOne holds kind e) (hpackable : kind.isPackable)
    (hfuel : (elements.flatMap bare).length ≤ fuel) :
    (readPacked? kind fuel (elements.flatMap bare)).isSome := by
  obtain ⟨type, htype, hne⟩ := (Option.any_eq_true _ _).mp hpackable
  induction elements generalizing fuel with
  | nil => cases fuel <;> rfl
  | cons e elements ih =>
    obtain ⟨he, hmore⟩ := List.forall_mem_cons.mp helements
    rw [List.flatMap_cons] at hfuel ⊢
    cases e with
    | scalar p =>
      obtain ⟨hcarries, hcarriable⟩ := he
      obtain ⟨type', htype', hnormal⟩ := (Option.any_eq_true _ _).mp hcarries
      obtain rfl := Option.some.inj (htype.symm.trans htype')
      obtain ⟨q, hq⟩ := Option.isSome_iff_exists.mp hnormal
      have htag := tag_of_normal? hq
      have hplain : p.tag ≠ .groupStart := by
        rw [htag]
        cases type <;> decide
      obtain ⟨-, -, -, hread⟩ :=
        Payload.write_eq hcarriable hplain 0 (elements.flatMap bare)
      obtain ⟨b, tail, hbare⟩ := List.exists_cons_of_ne_nil (bare_ne_nil hplain)
      have hscalar : readScalar? kind type.tag (p.bare ++ elements.flatMap bare) =
          some (.scalar q, elements.flatMap bare) := by
        rw [htag] at hread
        simp [readScalar?, htype, hread, hq]
      rw [bare, hbare, List.cons_append] at hfuel ⊢
      rw [hbare, List.cons_append] at hscalar
      cases fuel with
      | zero => exact absurd hfuel (by simp)
      | succ fuel =>
        have hrest := ih hmore (show (elements.flatMap bare).length ≤ fuel by
          rw [List.length_cons, List.length_append] at hfuel
          omega)
        simp [readPacked?, htype, hscalar, hrest]
    | message r =>
      obtain ⟨inner, hinner, -⟩ := he
      cases kind with
      | scalar | enumeration => cases hinner
      | message | group => cases htype
    | _ => exact he.elim

theorem mem_fieldsOfAll {elements : List Value} {y : Wire.Field}
    (h : y ∈ t.fieldsOfAll f elements) : ∃ e ∈ elements, y ∈ t.fieldsOfValue f e := by
  induction elements with
  | nil => exact absurd h (by unfold fieldsOfAll; exact List.not_mem_nil)
  | cons e elements ih =>
    unfold fieldsOfAll at h
    rcases List.mem_append.mp h with h | h
    · exact ⟨e, List.mem_cons_self, h⟩
    · obtain ⟨e', he', hy⟩ := ih h
      exact ⟨e', List.mem_cons_of_mem _ he', hy⟩

theorem not_holdsField_unknown {holds : String → Record → Prop} {payloads : List Payload} :
    ¬ HoldsField t holds n f (.unknown payloads) := by
  unfold HoldsField
  intro h
  split at h
  · exact h
  · obtain ⟨-, entries, heq, -⟩ := h
    exact nomatch heq
  · split at h
    · obtain ⟨elements, heq, -⟩ := h
      exact nomatch heq
    · exact h

namespace Retakes

variable (h : t.Retakes t' n) {y : Wire.Field}
include h

/-- What is written of one value. -/
theorem one (hv : HoldsOne (Holds t t' n) f.kind v) (hy : y ∈ t.fieldsOfValue f v)
    (hlength : (y.2.write y.1).length < 2 ^ 64) :
    y.1 = f.number.toNat ∧ y.2.Carriable ∧ takesOne (t'.takes n) f.kind y.2 := by
  cases v with
  | scalar p =>
    obtain ⟨hcarries, hcarriable⟩ := hv
    unfold fieldsOfValue at hy
    obtain rfl := List.mem_singleton.mp hy
    have hscalar : f.kind.scalar?.isSome := by
      obtain ⟨type, htype, -⟩ := (Option.any_eq_true _ _).mp hcarries
      exact Option.isSome_of_eq_some htype
    exact ⟨rfl, hcarriable, (takesOne_scalar hscalar).trans hcarries⟩
  | message r =>
    obtain ⟨type, htype, hr⟩ := hv
    unfold fieldsOfValue at hy
    cases hkind : f.kind with
    | message type' =>
      rw [hkind] at hy htype
      obtain rfl := Option.some.inj htype
      obtain rfl := List.mem_singleton.mp hy
      have hwrite := lt_of_le_of_lt (length_le_write_bytes _ _) hlength
      obtain ⟨hcarriable, htakes⟩ := h hr hwrite
      refine ⟨rfl, .bytes hwrite, ?_⟩
      simp [takesOne, Payload.bytes?, read?_write hcarriable, htakes]
    | group type' =>
      rw [hkind] at hy htype
      obtain rfl := Option.some.inj htype
      obtain rfl := List.mem_singleton.mp hy
      have hwrite := lt_of_le_of_lt (length_le_write_group _ _) hlength
      rw [← fieldsOf, ← write_eq] at hwrite
      obtain ⟨hcarriable, htakes⟩ := h hr hwrite
      refine ⟨rfl, .group (fun x hx => (hcarriable x hx).1) fun x hx => (hcarriable x hx).2, ?_⟩
      simp only [takesOne, Payload.group?, Option.any_some]
      exact htakes
    | scalar | enumeration =>
      rw [hkind] at htype
      cases htype
  | _ => exact hv.elim

/-- What is written of an entry of a map. -/
theorem entry {entry : Linked.MessageType} {key value : Field} {e : Value × Value}
    (hkey : entry.field? 1 = some key) (hvalue : entry.field? 2 = some value)
    (he : HoldsOne (Holds t t' n) key.kind e.1 ∧ HoldsOne (Holds t t' n) value.kind e.2)
    (hscalar : key.kind.scalar?.isSome) (hlength : (t.entryContent entry e).length < 2 ^ 64) :
    ∃ m, Message.read? (t.entryContent entry e) = some m ∧
      m.all (takesPart (t'.takes n) n key value) = true := by
  have hcontent : t.entryContent entry e =
      Wire.writeFields (t.fieldsOfValue key e.1 ++ t.fieldsOfValue value e.2) := by
    rw [entryContent, hkey, hvalue, Wire.writeFields_append, ← writeValue_eq, ← writeValue_eq]
    rfl
  rw [hcontent] at hlength ⊢
  have hpart : ∀ y ∈ t.fieldsOfValue key e.1 ++ t.fieldsOfValue value e.2,
      (IsNumber y.1 ∧ y.2.Carriable) ∧ takesPart (t'.takes n) n key value y = true := by
    intro y hy
    have hshort := lt_of_le_of_lt (Wire.length_write_le hy) hlength
    rcases List.mem_append.mp hy with hy | hy
    · obtain ⟨hnumber, hcarriable, htakes⟩ := h.one he.1 hy hshort
      rw [toNat_of_entryField? hkey] at hnumber
      rw [takesOne_scalar hscalar] at htakes
      refine ⟨⟨?_, hcarriable⟩, ?_⟩
      · rw [hnumber]
        exact ⟨by decide, by decide⟩
      · rw [takesPart, if_pos hnumber]
        exact htakes
    · obtain ⟨hnumber, hcarriable, htakes⟩ := h.one he.2 hy hshort
      rw [toNat_of_entryField? hvalue] at hnumber
      refine ⟨⟨?_, hcarriable⟩, ?_⟩
      · rw [hnumber]
        exact ⟨by decide, by decide⟩
      · rw [takesPart, if_neg (by rw [hnumber]; decide), if_pos hnumber]
        exact htakes
  exact ⟨_, Message.read?_writeFields fun y hy => (hpart y hy).1,
    List.all_eq_true.mpr fun y hy => (hpart y hy).2⟩

/-- What is written of a field. -/
theorem field (hentry : t'.entryFields? f = t.entryFields? f)
    (hpacked : f.packed → f.kind.isPackable)
    (hv : HoldsField t (Holds t t' n) n f v) (hy : y ∈ t.fieldsOfValue f v)
    (hlength : (y.2.write y.1).length < 2 ^ 64) :
    y.1 = f.number.toNat ∧ y.2.Carriable ∧ t'.takesField (t'.takes n) n f y.2 := by
  unfold HoldsField at hv
  cases hfields : t.entryFields? f with
  | some pair =>
    rw [hfields] at hv
    cases pair with
    | none => exact hv.elim
    | some pair =>
      obtain ⟨key, value⟩ := pair
      obtain ⟨hmakes, entries, rfl, hentries⟩ := hv
      obtain ⟨entry, htype, hkey, hvalue⟩ := entryFields?_eq_some.mp hfields
      unfold fieldsOfValue at hy
      rw [htype] at hy
      obtain ⟨e, he, rfl⟩ := List.mem_map.mp hy
      have hshort := lt_of_le_of_lt (length_le_write_bytes _ _) hlength
      obtain ⟨m, hm, hparts⟩ :=
        h.entry hkey hvalue (hentries e he) (key_of_makesEntries hmakes) hshort
      refine ⟨rfl, .bytes hshort, ?_⟩
      rw [takesField, hentry, hfields]
      simp [hmakes, takesEntry, Payload.bytes?, hm, hparts]
  | none =>
    rw [hfields] at hv
    rw [takesField_none (hentry.trans hfields), Bool.or_eq_true, Bool.and_eq_true]
    cases hrepeated : f.repeated with
    | false =>
      rw [hrepeated] at hv
      obtain ⟨hnumber, hcarriable, htakes⟩ := h.one hv hy hlength
      exact ⟨hnumber, hcarriable, .inl htakes⟩
    | true =>
      rw [hrepeated] at hv
      obtain ⟨elements, rfl, helements⟩ := hv
      unfold fieldsOfValue at hy
      split at hy
      case isTrue hp =>
        obtain rfl := List.mem_singleton.mp hy
        have hpackable := hpacked hp
        have hread := readPacked?_bare helements hpackable (Nat.le_refl _)
        refine ⟨rfl, .bytes (lt_of_le_of_lt (length_le_write_bytes _ _) hlength), .inr ⟨rfl, ?_⟩⟩
        simp only [Kind.packed?, hpackable, if_true, Payload.bytes?, Option.bind_some]
        exact hread
      case isFalse =>
        obtain ⟨e, he, hy⟩ := mem_fieldsOfAll hy
        obtain ⟨hnumber, hcarriable, htakes⟩ := h.one (helements e he) hy hlength
        exact ⟨hnumber, hcarriable, .inl htakes⟩

theorem succ (ht : t.Numbered) (hgrows : t.Grows t') : t.Retakes t' (n + 1) := by
  intro type r hr hlength
  rw [write_eq] at hlength
  have hfields : ∀ y ∈ t.fieldsOf type r,
      (IsNumber y.1 ∧ y.2.Carriable) ∧ t'.admits (t'.takes n) n type y = true := by
    intro y hy
    have hshort := lt_of_le_of_lt (Wire.length_write_le hy) hlength
    obtain ⟨x, hx, hy⟩ := mem_fieldsOf.mp hy
    obtain ⟨hnumber, hat⟩ := hr x hx
    unfold HoldsAt at hat
    cases hfield : t.field? type x.1 with
    | some f =>
      rw [hfield] at hat
      rcases mem_part hy with ⟨f', hf', hy⟩ | ⟨payloads, hvalue, -⟩
      · obtain rfl := Option.some.inj (hfield.symm.trans hf')
        obtain ⟨hsame, hcarriable, htakes⟩ :=
          h.field (hgrows.entryFields? hfield) (hgrows.packed hfield) hat hy hshort
        rw [toNat_of_field? ht hfield] at hsame
        refine ⟨⟨hsame ▸ hnumber, hcarriable⟩, ?_⟩
        rw [admits, hsame, hgrows.field? hfield]
        exact htakes
      · rw [hvalue] at hat
        exact (not_holdsField_unknown hat).elim
    | none =>
      rw [hfield] at hat
      obtain ⟨payloads, hvalue, hpayloads⟩ := hat
      rcases mem_part hy with ⟨f', hf', -⟩ | ⟨payloads', hvalue', p, hp, rfl⟩
      · rw [hfield] at hf'
        cases hf'
      · obtain rfl := Value.unknown.inj (hvalue.symm.trans hvalue')
        exact ⟨⟨hnumber, (hpayloads p hp).1⟩, (hpayloads p hp).2⟩
  exact ⟨fun y hy => (hfields y hy).1, List.all_eq_true.mpr fun y hy => (hfields y hy).2⟩

end Retakes

theorem retakes (ht : t.Numbered) (hgrows : t.Grows t') (n : Nat) : t.Retakes t' n := by
  induction n with
  | zero =>
    intro type r hr
    exact hr.elim
  | succ n ih => exact ih.succ ht hgrows

/-- What types that grow take of a message they take again of what is written of it. -/
theorem takes_fieldsOf (ht : t.Numbered) (hgrows : t.Grows t') (hn : n ≠ 0)
    (hm : Message.Carriable m) (htakes : t.takes n type m = true)
    (htakes' : t'.takes n type m = true)
    (hlength : (t.write type (t.gather n type [] m)).length < 2 ^ 64) :
    Message.Carriable (t.fieldsOf type (t.gather n type [] m)) ∧
      t'.takes n type (t.fieldsOf type (t.gather n type [] m)) = true :=
  retakes ht hgrows n (keeps ht hgrows n (holds_nil hn) hm htakes htakes') hlength

end Types

end GoBindings

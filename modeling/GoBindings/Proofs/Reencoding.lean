/-
  GoBindings/Proofs/Reencoding.lean
  =================================
  **Options that are written again choose the name that they chose.**

  Of what was gathered under a number the same payloads are written again if no field has the
  number, and otherwise one that says the same (`Types.payloads_fieldsOf`). So for types that grow
  the fields that are written choose the same name as those that were read
  (`Types.choice?_fieldsOf`).
-/
import GoBindings.Proofs.NamesInFields
import GoBindings.Proofs.Rereading

namespace GoBindings

open Linked (Field Kind)
open Wire (Payload Message)

namespace Types

variable {t t' : Types} {n k : Nat} {type inner : String} {f g : Field} {r : Record} {m : Message}
  {v : Value}

/-! ### What is written under a number -/

mutual

theorem fst_of_mem_fieldsOfValue {y : Wire.Field} :
    ∀ v, y ∈ t.fieldsOfValue f v → y.1 = f.number.toNat
  | .scalar payload, h => by
    unfold fieldsOfValue at h
    rw [List.mem_singleton.mp h]
  | .message r, h => by
    unfold fieldsOfValue at h
    cases hkind : f.kind with
    | message | group =>
      rw [hkind] at h
      rw [List.mem_singleton.mp h]
    | scalar | enumeration =>
      rw [hkind] at h
      exact absurd h List.not_mem_nil
  | .list es, h => by
    unfold fieldsOfValue at h
    split at h
    case isTrue => rw [List.mem_singleton.mp h]
    case isFalse => exact fst_of_mem_fieldsOfAll es h
  | .map es, h => by
    unfold fieldsOfValue at h
    split at h
    · obtain ⟨e, -, rfl⟩ := List.mem_map.mp h
      rfl
    · exact absurd h List.not_mem_nil
  | .unknown payloads, h => by
    unfold fieldsOfValue at h
    obtain ⟨p, -, rfl⟩ := List.mem_map.mp h
    rfl

theorem fst_of_mem_fieldsOfAll {y : Wire.Field} :
    ∀ es, y ∈ t.fieldsOfAll f es → y.1 = f.number.toNat
  | [], h => by
    unfold fieldsOfAll at h
    exact absurd h List.not_mem_nil
  | v :: rest, h => by
    unfold fieldsOfAll at h
    rcases List.mem_append.mp h with h | h
    · exact fst_of_mem_fieldsOfValue v h
    · exact fst_of_mem_fieldsOfAll rest h

end

theorem fst_of_mem_part (ht : t.Numbered) {x : Nat × Value} {y : Wire.Field}
    (h : y ∈ (t.part type x).2) : y.1 = x.1 := by
  rcases mem_part h with ⟨f, hf, hy⟩ | ⟨payloads, -, p, -, rfl⟩
  · rw [fst_of_mem_fieldsOfValue x.2 hy, toNat_of_field? ht hf]
  · rfl

theorem payloads_append (m more : Message) (k : Nat) :
    Message.payloads (m ++ more) k = m.payloads k ++ more.payloads k := by
  simp [Message.payloads]

theorem payloads_eq_nil (h : ∀ x ∈ m, x.1 ≠ k) : m.payloads k = [] := by
  simpa [Message.payloads] using h

theorem payloads_declaredFirst_cons (part : Bool × Message) (parts : List (Bool × Message))
    (h : part.2.payloads k = [] ∨ (declaredFirst parts).payloads k = []) :
    (declaredFirst (part :: parts)).payloads k =
      part.2.payloads k ++ (declaredFirst parts).payloads k := by
  obtain ⟨marked, fields⟩ := part
  unfold declaredFirst at h ⊢
  rw [payloads_append] at h ⊢
  cases marked with
  | true => simp [payloads_append, List.append_assoc]
  | false =>
    rcases h with h | h
    · simp [payloads_append, h]
    · obtain ⟨hfirst, hlast⟩ := List.append_eq_nil_iff.mp h
      simp [payloads_append, hfirst, hlast]

/-- Under a number is written what stands there. -/
theorem payloads_fieldsOf (ht : t.Numbered) (type : String) (hnodup : (r.map (·.1)).Nodup)
    (k : Nat) :
    (t.fieldsOf type r).payloads k =
      match r.lookup k with
      | some v => (t.part type (k, v)).2.map (·.2)
      | none => [] := by
  unfold fieldsOf
  rw [fieldsOfEach_eq]
  induction r with
  | nil => rfl
  | cons x rest ih =>
    obtain ⟨hx, hrest⟩ := List.nodup_cons.mp hnodup
    obtain ⟨number, v⟩ := x
    rw [List.map_cons, List.lookup_cons]
    by_cases hk : k = number
    · subst hk
      have hnone : rest.lookup k = none := List.lookup_eq_none_iff.mpr fun y hy =>
        bne_iff_ne.mpr fun heq => hx (List.mem_map.mpr ⟨y, hy, heq.symm⟩)
      have hnil := ih hrest
      rw [hnone] at hnil
      have hpart : (t.part type (k, v)).2.payloads k = (t.part type (k, v)).2.map (·.2) := by
        rw [Message.payloads, List.filter_eq_self.mpr]
        exact fun y hy => beq_iff_eq.mpr (fst_of_mem_part ht hy)
      rw [payloads_declaredFirst_cons _ _ (.inr hnil), hnil, List.append_nil, hpart]
      simp
    · have hnil : (t.part type (number, v)).2.payloads k = [] :=
        payloads_eq_nil fun y hy heq => hk (heq.symm.trans (fst_of_mem_part ht hy))
      rw [payloads_declaredFirst_cons _ _ (.inl hnil), hnil, List.nil_append, ih hrest]
      simp [beq_false_of_ne hk]

theorem part_of_field? (hf : t.field? type k = some f) (hv : ∀ payloads, v ≠ .unknown payloads) :
    (t.part type (k, v)).2 = if t.isSet f v then t.fieldsOfValue f v else [] := by
  unfold part
  rcases Option.or_eq_some_iff.mp hf with hdeclared | ⟨hnone, hextension⟩
  · rw [hdeclared]
  · obtain ⟨e, he, rfl⟩ := Option.map_eq_some_iff.mp hextension
    rw [hnone, he]
    cases v with
    | unknown payloads => exact absurd rfl (hv payloads)
    | _ => rfl

theorem part_unknown (hnone : t.field? type k = none) (payloads : List Payload) :
    (t.part type (k, .unknown payloads)).2.map (·.2) = payloads := by
  unfold part
  rw [(Option.or_eq_none_iff.mp hnone).1]
  simp

/-! ### Records that are gathered -/

theorem nodup_filter (hr : (r.map (·.1)).Nodup) (p : Nat × Value → Bool) :
    ((r.filter p).map (·.1)).Nodup :=
  hr.sublist (List.filter_sublist.map _)

theorem nodup_set (hr : (r.map (·.1)).Nodup) (k : Nat) (v : Value) :
    ((r.set k v).map (·.1)).Nodup := by
  rw [Record.set, List.map_append, List.map_cons, List.nodup_middle, List.nodup_cons]
  constructor
  · simp
  · refine (nodup_filter hr _).append (nodup_filter hr _) fun number hlow hhigh => ?_
    obtain ⟨x, hx, rfl⟩ := List.mem_map.mp hlow
    obtain ⟨y, hy, heq⟩ := List.mem_map.mp hhigh
    have hlt := of_decide_eq_true (List.mem_filter.mp hx).2
    have hgt := of_decide_eq_true (List.mem_filter.mp hy).2
    omega

theorem nodup_absorb (hr : (r.map (·.1)).Nodup) {gather : String → Record → Message → Record}
    (x : Wire.Field) : ((t.absorb gather type r x).map (·.1)).Nodup := by
  unfold absorb
  split
  · exact nodup_set (nodup_filter hr _) _ _
  · unfold Record.addUnknown
    split <;> exact nodup_set hr _ _

/-- A record that is gathered has one value for a number. -/
theorem nodup_gather (t : Types) (n : Nat) (type : String) (m : Message) :
    ((t.gather n type [] m).map (·.1)).Nodup :=
  gather_induction (motive := fun r => (r.map Prod.fst).Nodup)
    (fun x _ hr => nodup_absorb hr x) n List.nodup_nil

theorem mem_of_mem_absorb (ht : t.Numbered) {gather : String → Record → Message → Record}
    {x : Wire.Field} {y : Nat × Value} (h : y ∈ t.absorb gather type r x) :
    y ∈ r ∨ y.1 = x.1 := by
  unfold absorb at h
  cases hfield : t.field? type x.1 with
  | some f =>
    rw [hfield] at h
    rcases mem_of_mem_assign h with rfl | h
    · exact .inr (toNat_of_field? ht hfield)
    · exact .inl h
  | none =>
    rw [hfield] at h
    rcases Record.mem_of_mem_addUnknown h with ⟨payloads, rfl, -⟩ | h
    · exact .inr rfl
    · exact .inl h

/-- Only what was read has numbers in a record that is gathered. -/
theorem fst_of_mem_gather (ht : t.Numbered) {x : Nat × Value} (h : x ∈ t.gather n type [] m) :
    ∃ y ∈ m, y.1 = x.1 := by
  refine gather_induction (motive := fun r => ∀ x ∈ r, ∃ y ∈ m, y.1 = x.1) ?_ n
    (List.forall_mem_nil _) x h
  intro gather r y hy hr x hx
  rcases mem_of_mem_absorb ht hx with hx | heq
  · exact hr x hx
  · exact ⟨y, hy, heq.symm⟩

/-- Only what was read is written. -/
theorem fst_of_mem_fieldsOf_gather (ht : t.Numbered) {x : Wire.Field}
    (h : x ∈ t.fieldsOf type (t.gather n type [] m)) : ∃ y ∈ m, y.1 = x.1 := by
  obtain ⟨y, hy, hx⟩ := mem_fieldsOf.mp h
  rw [fst_of_mem_part ht hx]
  exact fst_of_mem_gather ht hy

/-! ### Members of one oneof -/

/-- Rivals are each other's, and extensions have none. -/
structure Oneofs (t : Types) : Prop where
  symm : ∀ {type j k f g}, t.field? type j = some f → t.field? type k = some g → k ∈ f.rivals →
    j ∈ g.rivals
  extension : ∀ {type k x}, t.extensionOf? type k = some x → x.field.rivals = []

/-- Where a field is set no other one unsets it. -/
def Alone (t : Types) (type : String) (k : Nat) (r : Record) : Prop :=
  r.lookup k ≠ none → ∀ x ∈ r, x.1 ≠ k → ∀ f, t.field? type x.1 = some f → k ∉ f.rivals

section

variable (ht : t.Numbered) (hg : t.field? type k = some g)
  (hsymm : ∀ {j f}, t.field? type j = some f → k ∈ f.rivals → j ∈ g.rivals)
include ht hg hsymm

theorem alone_absorb {gather : String → Record → Message → Record} {x : Wire.Field}
    (h : t.Alone type k r) : t.Alone type k (t.absorb gather type r x) := by
  intro hset y hy hne f hf
  unfold absorb at hset hy
  cases hfield : t.field? type x.1 with
  | some f' =>
    have hnumber := toNat_of_field? ht hfield
    rw [hfield] at hset hy
    simp only [lookup_assign, hnumber] at hset
    rcases Record.mem_of_mem_set hy with rfl | hy
    · rw [hnumber] at hf hne
      obtain rfl := Option.some.inj (hfield.symm.trans hf)
      rw [if_neg hne.symm] at hset
      intro hmem
      rw [if_pos (List.contains_iff_mem.mpr hmem)] at hset
      exact hset rfl
    · obtain ⟨hy, hkept⟩ := List.mem_filter.mp hy
      by_cases hk : k = x.1
      · -- what the field unsets is what would unset it
        subst hk
        obtain rfl := Option.some.inj (hfield.symm.trans hg)
        intro hmem
        have hrival := hsymm hf hmem
        simp [hrival] at hkept
      · rw [if_neg hk] at hset
        refine h (fun hnone => hset ?_) y hy hne f hf
        rw [hnone, ite_self]
  | none =>
    rw [hfield] at hset hy
    have hk : k ≠ x.1 := by
      rintro rfl
      exact nomatch hfield.symm.trans hg
    rw [Record.lookup_addUnknown_of_ne hk] at hset
    rcases Record.mem_of_mem_addUnknown hy with ⟨payloads, rfl, -⟩ | hy
    · rw [hfield] at hf
      exact nomatch hf
    · exact h hset y hy hne f hf

theorem alone_gather (n : Nat) (m : Message) : t.Alone type k (t.gather n type [] m) :=
  gather_induction (fun _ _ h => alone_absorb ht hg hsymm h) n
    fun _ _ hx => absurd hx List.not_mem_nil

end

/-! ### Texts -/

/-- Without rivals the last payload under a number counts. -/
theorem last_eq_getLast? (h : ∀ x ∈ m, x.1 ≠ k → ∀ f, t.field? type x.1 = some f → k ∉ f.rivals)
    (held : Option Payload) : t.last type k held m = (m.payloads k).getLast?.or held := by
  induction m generalizing held with
  | nil => rfl
  | cons x m ih =>
    obtain ⟨hx, hm⟩ := List.forall_mem_cons.mp h
    rw [last, List.foldl_cons, ← last, ih hm]
    by_cases hk : x.1 = k
    · obtain ⟨number, p⟩ := x
      obtain rfl : number = k := hk
      rw [if_pos rfl, payloads_cons_self, List.getLast?_cons]
      cases (Message.payloads m number).getLast? <;> rfl
    · rw [if_neg hk, payloads_cons_of_ne hk]
      cases hf : t.field? type x.1 with
      | none => rfl
      | some f => simp [hx hk f hf]

theorem last_eq_none (h : m.payloads k = []) : t.last type k none m = none := by
  induction m with
  | nil => rfl
  | cons x m ih =>
    by_cases hk : x.1 = k
    · obtain ⟨number, p⟩ := x
      obtain rfl : number = k := hk
      rw [payloads_cons_self] at h
      exact nomatch h
    · rw [payloads_cons_of_ne hk] at h
      rw [last, List.foldl_cons, ← last, if_neg hk, ite_self]
      exact ih h

theorem eq_of_same_string {p q : Payload} (h : Descriptor.Scalar.string.same p q) : p = q := by
  cases p <;> cases q <;> simp_all [Descriptor.Scalar.same]

/-- A text that is not written is the one that the field has without being set. -/
theorem defaultPayload?_of_not_isSet {p : Payload} (hkind : g.kind = .scalar .string)
    (h : t.isSet g (.scalar p) = false) : t.defaultPayload? g = some p := by
  obtain ⟨d, hd⟩ : ∃ d, t.defaultPayload? g = some d := by simp [defaultPayload?, hkind]
  simp only [isSet, isDefault, hkind, Kind.scalar?, hd, Bool.or_eq_false_iff, Bool.not_eq_false',
    Bool.and_eq_true] at h
  rw [hd, eq_of_same_string h.2.2]

theorem defaultPayload?_eq_of_string (hkind : g.kind = .scalar .string) :
    t.defaultPayload? g = t'.defaultPayload? g := by
  rw [defaultPayload?, defaultPayload?, hkind]

/-- Where a message type is known, fields that are known later only are extensions. -/
theorem rivals_of_later (honeofs : t'.Oneofs) (hinner : t'.message? inner = t.message? inner)
    (hnone : t.field? inner k = none) (hf : t'.field? inner k = some f) : f.rivals = [] := by
  have hdeclared : t'.declared? inner k = none := by
    rw [declared?, hinner]
    exact (Option.or_eq_none_iff.mp hnone).1
  rw [field?, hdeclared, Option.none_or] at hf
  obtain ⟨x, hx, rfl⟩ := Option.map_eq_some_iff.mp hf
  exact honeofs.extension hx

section

variable (ht : t.Numbered) (hgrows : t.Grows t') (honeofs : t'.Oneofs)
  (hinner : t'.message? inner = t.message? inner)
include hgrows honeofs hinner

theorem last_of_grows (m : Message) : t'.last inner k none m = t.last inner k none m := by
  unfold last
  congr 1
  funext held x
  cases hfield : t.field? inner x.1 with
  | some f => rw [hgrows.field? hfield]
  | none =>
    cases hlater : t'.field? inner x.1 with
    | none => rfl
    | some f => simp [rivals_of_later honeofs hinner hfield hlater]

include ht

/-- What is written of a text is read as the text, and where none is written it is the default. -/
theorem last_fieldsOf (hg : t.field? inner k = some g) (hkind : g.kind = .scalar .string)
    (hrepeated : g.repeated = false) (m : Message) :
    (t'.last inner k none (t.fieldsOf inner (t.gather (n + 1) inner [] m))).or
        (t'.defaultPayload? g) =
      (t'.last inner k none m).or (t'.defaultPayload? g) := by
  have hnone : List.lookup k ([] : Record) = Option.map Value.scalar none := rfl
  have hlookup := lookup_gather_text (n := n) (m := m) ht hg hrepeated hkind hnone
  have hpayloads := payloads_fieldsOf ht inner (nodup_gather t (n + 1) inner m) k
  rw [hlookup] at hpayloads
  rw [last_of_grows hgrows honeofs hinner m]
  cases hlast : t.last inner k none m with
  | none =>
    rw [hlast] at hpayloads
    rw [last_eq_none hpayloads]
  | some p =>
    rw [hlast] at hpayloads
    simp only [Option.map_some, part_of_field? hg (v := .scalar p) nofun] at hpayloads
    cases hset : t.isSet g (.scalar p) with
    | false =>
      rw [hset] at hpayloads
      have hdefault : t'.defaultPayload? g = t.defaultPayload? g :=
        defaultPayload?_eq_of_string hkind
      rw [last_eq_none hpayloads, hdefault, defaultPayload?_of_not_isSet hkind hset]
      rfl
    | true =>
      rw [hset] at hpayloads
      have halone := alone_gather ht hg
        (fun hf hmem => honeofs.symm (hgrows.field? hf) (hgrows.field? hg) hmem) (n + 1) m
      have hrivals : ∀ x ∈ t.fieldsOf inner (t.gather (n + 1) inner [] m), x.1 ≠ k →
          ∀ f, t'.field? inner x.1 = some f → k ∉ f.rivals := by
        intro x hx hne f hf
        obtain ⟨y, hy, hx⟩ := mem_fieldsOf.mp hx
        have hsame := fst_of_mem_part ht hx
        rw [hsame] at hne hf
        cases hfield : t.field? inner y.1 with
        | some f' =>
          obtain rfl := Option.some.inj ((hgrows.field? hfield).symm.trans hf)
          exact halone (by rw [hlookup, hlast]; exact Option.some_ne_none _) y hy hne _ hfield
        | none =>
          rw [rivals_of_later honeofs hinner hfield hf]
          exact List.not_mem_nil
      rw [last_eq_getLast? hrivals, hpayloads]
      rfl

/-- Fields of a message that are gathered and written again hold the same name. -/
theorem textIn?_fieldsOf (m : Message) :
    t'.textIn? inner (t.fieldsOf inner (t.gather (n + 1) inner [] m)) = t'.textIn? inner m := by
  unfold textIn?
  rw [hinner]
  cases htype : t.message? inner with
  | none => rfl
  | some declared =>
    simp only [Option.bind_eq_bind, Option.bind_some]
    cases hname : declared.fields.find? (·.name == "name") with
    | none => rfl
    | some g =>
      simp only [Option.bind_some]
      by_cases hcond : g.kind = .scalar .string ∧ g.repeated = false
      · have hg := field?_of_mem ht htype (List.mem_of_find?_eq_some hname)
        rw [if_pos hcond, if_pos hcond,
          last_fieldsOf ht hgrows honeofs hinner hg hcond.1 hcond.2 m]
      · rw [if_neg hcond, if_neg hcond]

end

/-! ### The name that is chosen -/

/-- Under a number that no field has the same is written as was read. -/
theorem payloads_fieldsOf_unknown (ht : t.Numbered) (hnone : t.field? type k = none)
    (hrivals : t.Unrivaled type k m) :
    (t.fieldsOf type (t.gather (n + 1) type [] m)).payloads k = m.payloads k := by
  have hstart : List.lookup k ([] : Record) = if ([] : List Payload) = [] then none
      else some (.unknown []) := rfl
  have hlookup := lookup_gather_unknown (n := n) ht hnone hrivals hstart
  rw [payloads_fieldsOf ht type (nodup_gather t (n + 1) type m) k, hlookup, List.nil_append]
  split
  case h_1 v hv =>
    obtain ⟨-, heq⟩ := Option.ite_none_left_eq_some.mp hv
    obtain rfl := Option.some.inj heq
    exact part_unknown hnone _
  case h_2 hv =>
    by_contra hne
    rw [if_neg (Ne.symm hne)] at hv
    exact nomatch hv

theorem length_write_part_le {x : Nat × Value} {y : Wire.Field} (hx : x ∈ r)
    (hy : y ∈ (t.part type x).2) : (y.2.write y.1).length ≤ (t.write type r).length := by
  rw [write_eq]
  exact Wire.length_write_le (mem_fieldsOf.mpr ⟨x, hx, hy⟩)

/-- The fields of a message that is written are those that are written of it. -/
theorem innerFields_of_holds (hretakes : t.Retakes t' n) (hkind : f.kind.message? = some inner)
    (hr : Holds t t' n inner r)
    (hlength : ∀ y ∈ t.fieldsOfValue f (.message r), (y.2.write y.1).length < 2 ^ 64) :
    ((t.fieldsOfValue f (.message r)).map (·.2)).flatMap (innerFields f.kind) =
      t.fieldsOf inner r := by
  unfold fieldsOfValue at hlength ⊢
  cases hk : f.kind with
  | message type =>
    rw [hk] at hkind hlength
    obtain rfl := Option.some.inj hkind
    have hshort := lt_of_le_of_lt (length_le_write_bytes _ _) (hlength _ List.mem_cons_self)
    have hread := read?_write (hretakes hr hshort).1
    simp [innerFields, Payload.bytes?, hread]
  | group type =>
    rw [hk] at hkind
    obtain rfl := Option.some.inj hkind
    simp only [List.map_cons, List.map_nil, List.flatMap_singleton, innerFields, Payload.group?,
      Option.getD_some]
    rfl
  | scalar | enumeration =>
    rw [hk] at hkind
    cases hkind

theorem fieldsOfValue_message_ne_nil (hkind : f.kind.message? = some inner) :
    t.fieldsOfValue f (.message r) ≠ [] := by
  unfold fieldsOfValue
  cases hk : f.kind with
  | message | group => exact List.cons_ne_nil _ _
  | scalar | enumeration =>
    rw [hk] at hkind
    exact nomatch hkind

theorem holds_of_message (hrepeated : f.repeated = false) (hkind : f.kind.message? = some inner)
    (h : HoldsField t (Holds t t' n) n f (.message r)) : Holds t t' n inner r := by
  rw [HoldsField, entryFields?_of_singular hrepeated, hrepeated] at h
  obtain ⟨type, htype, hr⟩ := h
  obtain rfl := Option.some.inj (hkind.symm.trans htype)
  exact hr

/-- Fields that are gathered and written again choose the same name. -/
theorem choice?_fieldsOf (ht : t.Numbered) (hgrows : t.Grows t')
    (honeofs : t'.Oneofs) (hr : Holds t t' (n + 2) type (t.gather (n + 2) type [] m))
    (hlength : (t.write type (t.gather (n + 2) type [] m)).length < 2 ^ 64)
    (hrivals : t'.Unrivaled type k m) :
    t'.choice? k type (t.fieldsOf type (t.gather (n + 2) type [] m)) = t'.choice? k type m := by
  have hrivals' : t.Unrivaled type k m := fun x hx f hf => hrivals x hx f (hgrows.field? hf)
  unfold choice?
  cases hlater : t'.field? type k with
  | none => rfl
  | some f =>
    simp only [Option.bind_eq_bind, Option.bind_some]
    cases hkind : f.kind.message? with
    | none => rfl
    | some inner =>
      simp only [Option.bind_some]
      cases hrepeated : f.repeated with
      | true => simp
      | false =>
        cases hfield : t.field? type k with
        | none => rw [payloads_fieldsOf_unknown ht hfield hrivals']
        | some f' =>
          obtain rfl := Option.some.inj ((hgrows.field? hfield).symm.trans hlater)
          have hstart : List.lookup k ([] : Record) = Option.map Value.message none := rfl
          have hlookup := lookup_gather_message (n := n + 1) ht hfield hrepeated hkind hrivals'
            hstart
          have hpayloads := payloads_fieldsOf ht type (nodup_gather t (n + 2) type m) k
          by_cases hnil : m.payloads k = []
          · rw [hlookup, if_pos hnil] at hpayloads
            simp [hpayloads, hnil]
          · rw [if_neg hnil] at hlookup
            have hmem := Record.mem_of_lookup hlookup
            have hset : ∀ fields, t.isSet f' (.message fields) = true := fun fields => by
              simp [isSet, isDefault]
            have hpart : ∀ fields, (t.part type (k, .message fields)).2 =
                t.fieldsOfValue f' (.message fields) := fun fields => by
              rw [part_of_field? hfield (v := .message fields) nofun, hset, if_pos rfl]
            have hat := (hr _ hmem).2
            rw [HoldsAt, hfield] at hat
            have hinner := innerFields_of_holds (retakes ht hgrows (n + 1)) hkind
              (holds_of_message hrepeated hkind hat) fun y hy =>
                lt_of_le_of_lt (length_write_part_le hmem (hpart _ ▸ hy)) hlength
            rw [hlookup] at hpayloads
            simp only [hpart] at hpayloads
            have hsome : (t.fieldsOf type (t.gather (n + 2) type [] m)).payloads k ≠ [] := by
              rw [hpayloads, ne_eq, List.map_eq_nil_iff]
              exact fieldsOfValue_message_ne_nil hkind
            rw [if_pos ⟨rfl, hsome⟩, if_pos ⟨rfl, hnil⟩, hpayloads, hinner, Option.getD_none,
              textIn?_fieldsOf ht hgrows honeofs (hgrows.message? hfield hkind)]

end Types

end GoBindings

/-
  GoBindings/Proofs/Shapes.lean
  =============================
  **What is read has the shape that its type says.**

  A field that holds one value is read as one value and a repeated field as many, and the
  fields of a message are those of its type (`Types.Fits`). This holds of every value that a
  field starts with, and reading keeps it with each field that it takes
  (`Types.keepsShapes`): in whatever order fields come, and however often one comes.
-/
import GoBindings.Pool.Record.Reader
import GoBindings.Proofs.Keys

namespace GoBindings

open Linked (Field Kind)

namespace Record

variable {r : Record} {n : Nat} {v : Value}

theorem mem_of_lookup (h : r.lookup n = some v) : (n, v) ∈ r := by
  obtain ⟨before, after, rfl, -⟩ := List.lookup_eq_some_iff.mp h
  simp

theorem mem_of_value? (h : r.value? n = some v) : (n, v) ∈ r := by
  refine mem_of_lookup ?_
  unfold value? at h
  split at h
  · exact nomatch h
  · exact h

theorem mem_of_mem_set {x : Nat × Value} (h : x ∈ r.set n v) : x = (n, v) ∨ x ∈ r := by
  rw [set, List.mem_append, List.mem_cons] at h
  rcases h with h | rfl | h
  · exact .inr (List.mem_filter.mp h).1
  · exact .inl rfl
  · exact .inr (List.mem_filter.mp h).1

/-- Where no field is known, a payload stands behind those that stood there. -/
theorem mem_of_mem_addUnknown {p : Wire.Payload} {x : Nat × Value} (h : x ∈ r.addUnknown n p) :
    (∃ payloads, x = (n, .unknown (payloads ++ [p])) ∧
      (payloads = [] ∨ (n, .unknown payloads) ∈ r)) ∨ x ∈ r := by
  simp only [addUnknown] at h
  split at h
  case h_1 payloads hlookup =>
    exact (mem_of_mem_set h).imp_left fun heq => ⟨payloads, heq, .inr (mem_of_lookup hlookup)⟩
  case h_2 => exact (mem_of_mem_set h).imp_left fun heq => ⟨[], heq, .inl rfl⟩

end Record

namespace Types

/-- A value has the shape that a field asks for: one value or many, a message with the fields of
    the field's type or something else. -/
inductive Fits (t : Types) : Field → Value → Prop
  | scalar {f : Field} {payload : Wire.Payload} (hrepeated : f.repeated = false)
      (hkind : f.kind.message? = none) : Fits t f (.scalar payload)
  | message {f : Field} {type : String} {r : Record} (hrepeated : f.repeated = false)
      (hkind : f.kind.message? = some type)
      (hfields : ∀ n v g, (n, v) ∈ r → t.field? type n = some g → Fits t g v) :
      Fits t f (.message r)
  | list {f : Field} {elements : List Value} (hrepeated : f.repeated = true) :
      Fits t f (.list elements)
  | map {f : Field} {entries : List (Value × Value)} (hrepeated : f.repeated = true) :
      Fits t f (.map entries)

/-- The values of a message have the shapes of the fields of a type. -/
def RecordFits (t : Types) (type : String) (r : Record) : Prop :=
  ∀ n v g, (n, v) ∈ r → t.field? type n = some g → t.Fits g v

/-- No two fields of a message type have one number, and extensions are found by their own. -/
structure Numbered (t : Types) : Prop where
  distinct : ∀ m ∈ t.messages, (m.fields.map (·.number)).Nodup
  natural : ∀ m ∈ t.messages, ∀ f ∈ m.fields, 0 ≤ f.number
  extensions : ∀ type n x, t.extensionOf? type n = some x → x.field.number = (n : Int)

variable {t : Types} {type : String} {r : Record} {f g : Field} {v : Value} {n : Nat}

theorem recordFits_nil : t.RecordFits type [] := fun _ _ _ hmem => absurd hmem List.not_mem_nil

theorem RecordFits.filter (hr : t.RecordFits type r) (p : Nat × Value → Bool) :
    t.RecordFits type (r.filter p) :=
  fun n v g hmem => hr n v g (List.mem_filter.mp hmem).1

theorem RecordFits.set (hr : t.RecordFits type r)
    (hv : ∀ g, t.field? type n = some g → t.Fits g v) : t.RecordFits type (r.set n v) := by
  intro k w g hmem hg
  rcases Record.mem_of_mem_set hmem with heq | hmem
  · obtain ⟨rfl, rfl⟩ := Prod.mk.inj heq
    exact hv g hg
  · exact hr k w g hmem hg

theorem repeated_of_entryType? (h : (t.entryType? f).isSome) : f.repeated = true := by
  unfold entryType? at h
  split at h
  · assumption
  · exact nomatch h

theorem recordFits_addUnknown (hr : t.RecordFits type r) (hnone : t.field? type n = none)
    (payload : Wire.Payload) : t.RecordFits type (r.addUnknown n payload) := by
  unfold Record.addUnknown
  split <;> exact hr.set fun g hg => nomatch hnone.symm.trans hg

/-! ### What a field starts with -/

theorem fits_default (t : Types) (f : Field) : t.Fits f (t.default f) := by
  unfold default
  split
  case isTrue hentry => exact .map (repeated_of_entryType? hentry)
  case isFalse =>
    split
    case isTrue hrepeated => exact .list hrepeated
    case isFalse hrepeated =>
      rw [Bool.not_eq_true] at hrepeated
      unfold defaultPayload?
      rcases hkind : f.kind with type | type | type | type
      · exact .scalar hrepeated (by rw [hkind]; rfl)
      · exact .scalar hrepeated (by rw [hkind]; rfl)
      · exact .message hrepeated (by rw [hkind]; rfl) fun _ _ _ hmem => absurd hmem List.not_mem_nil
      · exact .message hrepeated (by rw [hkind]; rfl) fun _ _ _ hmem => absurd hmem List.not_mem_nil

section Numbered

variable (ht : t.Numbered)
include ht

theorem number_of_field? (h : t.field? type n = some f) : f.number = (n : Int) := by
  rcases Option.or_eq_some_iff.mp h with hdeclared | ⟨-, hextension⟩
  · obtain ⟨m, -, hm⟩ := Option.bind_eq_some_iff.mp hdeclared
    simpa using List.find?_some hm
  · obtain ⟨x, hx, rfl⟩ := Option.map_eq_some_iff.mp hextension
    exact ht.extensions type n x hx

theorem toNat_of_field? (h : t.field? type n = some f) : f.number.toNat = n := by
  rw [number_of_field? ht h, Int.toNat_natCast]

theorem field?_of_mem {m : Linked.MessageType} (hm : t.message? type = some m)
    (hf : f ∈ m.fields) : t.field? type f.number.toNat = some f := by
  have hmem : m ∈ t.messages := List.mem_of_find?_eq_some hm
  have hnumber : ((f.number.toNat : Nat) : Int) = f.number :=
    Int.toNat_of_nonneg (ht.natural m hmem f hf)
  have hfield : m.field? f.number.toNat = some f := by
    rw [Linked.MessageType.field?, hnumber]
    exact (find?_key_eq_some_iff (ht.distinct m hmem)).mpr ⟨hf, rfl⟩
  rw [field?, declared?, hm, Option.bind_some, hfield, Option.some_or]

theorem fits_valueIn (hr : t.RecordFits type r) (hf : t.field? type n = some f) :
    t.Fits f (t.valueIn r f) := by
  rw [valueIn, toNat_of_field? ht hf]
  cases hv : r.value? n with
  | none => exact fits_default t f
  | some v => exact hr n v f (Record.mem_of_value? hv) hf

theorem recordFits_assign (hr : t.RecordFits type r) (hf : t.field? type n = some f)
    (hv : t.Fits f v) : t.RecordFits type (assign r f v) := by
  rw [assign, toNat_of_field? ht hf]
  refine (hr.filter _).set fun g hg => ?_
  obtain rfl := Option.some.inj (hf.symm.trans hg)
  exact hv

end Numbered

/-! ### Reading -/

theorem fits_fields (hv : t.Fits f v) (hkind : f.kind.message? = some type) :
    t.RecordFits type v.fields := by
  cases hv with
  | scalar => exact recordFits_nil
  | message _ htype hfields =>
    obtain rfl := Option.some.inj (hkind.symm.trans htype)
    exact hfields
  | list => exact recordFits_nil
  | map => exact recordFits_nil

theorem fits_readScalar? {tag : Wire.Tag} {bytes rest : List UInt8}
    (h : readScalar? f.kind tag bytes = some (v, rest)) (hrepeated : f.repeated = false) :
    t.Fits f v := by
  obtain ⟨scalar, hscalar, h⟩ := Option.bind_eq_some_iff.mp h
  split at h
  case isFalse => exact nomatch h
  case isTrue =>
    obtain ⟨⟨payload, after⟩, -, h⟩ := Option.bind_eq_some_iff.mp h
    obtain ⟨normal, -, h⟩ := Option.bind_eq_some_iff.mp h
    obtain ⟨rfl, -⟩ := Prod.mk.inj (Option.some.inj h)
    refine .scalar hrepeated ?_
    cases hkind : f.kind with
    | scalar => rfl
    | enumeration => rfl
    | message => rw [hkind] at hscalar; exact nomatch hscalar
    | group => rw [hkind] at hscalar; exact nomatch hscalar

/-- Reading with some fuel keeps the shapes: of the fields of a message, of the value of a
    field, and of one value. -/
structure KeepsShapes (t : Types) (fuel : Nat) : Prop where
  fields : ∀ {budget type inGroup r bytes r' rest},
    t.mergeFields fuel budget type inGroup r bytes = some (r', rest) →
      t.RecordFits type r → t.RecordFits type r'
  value : ∀ {budget f tag v bytes v' rest},
    t.mergeValue fuel budget f tag v bytes = some (v', rest) → t.Fits f v → t.Fits f v'
  one : ∀ {budget f number tag v bytes v' rest},
    t.mergeOne fuel budget f.kind number tag v bytes = some (v', rest) →
      f.repeated = false → t.Fits f v → t.Fits f v'

section Step

variable {fuel budget number : Nat} {inGroup : Option Nat} {tag : Wire.Tag} {r' : Record}
  {v' : Value} {bytes rest : List UInt8} (keeps : t.KeepsShapes fuel)
include keeps

theorem KeepsShapes.fields_succ (ht : t.Numbered)
    (h : t.mergeFields (fuel + 1) budget type inGroup r bytes = some (r', rest))
    (hr : t.RecordFits type r) : t.RecordFits type r' := by
  rw [mergeFields] at h
  split at h
  case isTrue =>
    obtain ⟨rfl, -⟩ := Prod.mk.inj (Option.some.inj h)
    exact hr
  case isFalse =>
    obtain ⟨⟨⟨number, tag⟩, content⟩, -, h⟩ := Option.bind_eq_some_iff.mp h
    dsimp only at h
    split at h
    case isTrue =>
      split at h
      case isTrue =>
        obtain ⟨rfl, -⟩ := Prod.mk.inj (Option.some.inj h)
        exact hr
      case isFalse => cases h
    case isFalse =>
      split at h
      case h_1 f hf =>
        obtain ⟨⟨v, after⟩, hv, h⟩ := Option.bind_eq_some_iff.mp h
        have hfits : t.Fits f v := keeps.value hv (fits_valueIn ht hr hf)
        exact keeps.fields h (recordFits_assign ht hr hf hfits)
      case h_2 hnone =>
        obtain ⟨⟨payload, after⟩, -, h⟩ := Option.bind_eq_some_iff.mp h
        dsimp only at h
        split at h
        case isTrue => exact keeps.fields h (recordFits_addUnknown hr hnone payload)
        case isFalse => cases h

theorem KeepsShapes.value_succ
    (h : t.mergeValue (fuel + 1) budget f tag v bytes = some (v', rest)) (hv : t.Fits f v) :
    t.Fits f v' := by
  rw [mergeValue] at h
  split at h
  case h_1 entry hentry =>
    obtain ⟨keyField, -, h⟩ := Option.bind_eq_some_iff.mp h
    obtain ⟨valueField, -, h⟩ := Option.bind_eq_some_iff.mp h
    obtain ⟨⟨content, after⟩, -, h⟩ := Option.bind_eq_some_iff.mp h
    obtain ⟨⟨key, value⟩, -, h⟩ := Option.bind_eq_some_iff.mp h
    obtain ⟨rfl, -⟩ := Prod.mk.inj (Option.some.inj h)
    exact .map (repeated_of_entryType? (Option.isSome_of_eq_some hentry))
  case h_2 =>
    split at h
    case isTrue hsingular => exact keeps.one h (by simpa using hsingular) hv
    case isFalse hrepeated =>
      have hlist : ∀ elements, t.Fits f (.list elements) :=
        fun elements => .list (by simpa using hrepeated)
      split at h
      case isTrue =>
        obtain ⟨⟨content, after⟩, -, h⟩ := Option.bind_eq_some_iff.mp h
        obtain ⟨more, -, h⟩ := Option.bind_eq_some_iff.mp h
        obtain ⟨rfl, -⟩ := Prod.mk.inj (Option.some.inj h)
        exact hlist _
      case isFalse =>
        obtain ⟨⟨e, after⟩, -, h⟩ := Option.bind_eq_some_iff.mp h
        obtain ⟨rfl, -⟩ := Prod.mk.inj (Option.some.inj h)
        exact hlist _

theorem KeepsShapes.one_succ
    (h : t.mergeOne (fuel + 1) budget f.kind number tag v bytes = some (v', rest))
    (hrepeated : f.repeated = false) (hv : t.Fits f v) : t.Fits f v' := by
  cases hkind : f.kind with
  | scalar scalar =>
    rw [hkind, mergeOne] at h
    · exact fits_readScalar? (hkind ▸ h) hrepeated
    all_goals intro _ heq; cases heq
  | enumeration fullName =>
    rw [hkind, mergeOne] at h
    · exact fits_readScalar? (hkind ▸ h) hrepeated
    all_goals intro _ heq; cases heq
  | message type =>
    have htype : f.kind.message? = some type := by rw [hkind]; rfl
    rw [hkind, mergeOne] at h
    split at h
    case isTrue =>
      obtain ⟨⟨content, after⟩, -, h⟩ := Option.bind_eq_some_iff.mp h
      obtain ⟨⟨r, left⟩, hr, h⟩ := Option.bind_eq_some_iff.mp h
      obtain ⟨rfl, -⟩ := Prod.mk.inj (Option.some.inj h)
      exact .message hrepeated htype (keeps.fields hr (fits_fields hv htype))
    case isFalse => cases h
  | group type =>
    have htype : f.kind.message? = some type := by rw [hkind]; rfl
    rw [hkind, mergeOne] at h
    split at h
    case isTrue =>
      obtain ⟨⟨r, after⟩, hr, h⟩ := Option.bind_eq_some_iff.mp h
      obtain ⟨rfl, -⟩ := Prod.mk.inj (Option.some.inj h)
      exact .message hrepeated htype (keeps.fields hr (fits_fields hv htype))
    case isFalse => cases h

end Step

theorem keepsShapes (ht : t.Numbered) (fuel : Nat) : t.KeepsShapes fuel := by
  induction fuel with
  | zero =>
    constructor
    · intro _ _ _ _ _ _ _ h
      simp [mergeFields] at h
    · intro _ _ _ _ _ _ _ h
      simp [mergeValue] at h
    · intro _ _ _ _ _ _ _ _ h
      simp [mergeOne] at h
  | succ fuel keeps => exact ⟨keeps.fields_succ ht, keeps.value_succ, keeps.one_succ⟩

theorem recordFits_of_read? (ht : t.Numbered) {bytes : List UInt8}
    (h : t.read? type bytes = some r) : t.RecordFits type r := by
  obtain ⟨⟨r', rest⟩, hr, rfl⟩ := Option.map_eq_some_iff.mp h
  exact (keepsShapes ht _).fields hr recordFits_nil

end Types

end GoBindings

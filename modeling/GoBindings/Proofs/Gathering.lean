/-
  GoBindings/Proofs/Gathering.lean
  ================================
  **What is read of fields that fit their type.**

  Once bytes are parsed, whether types take the fields (`Types.takes`) and what they make of them
  (`Types.gather`) is told field by field, by recursion on the levels of messages that may nest.
  Fields that are taken are read to what is gathered of them (`Types.mergeFields_eq`). What is
  taken does not depend on what was read before, and each field leaves every other value as it
  is, except those of its oneof.
-/
import GoBindings.Proofs.Parses
import GoBindings.Proofs.Shapes

namespace GoBindings

open Linked (Field Kind)
open Wire (Payload Message Parses)

def Wire.Payload.group? : Payload → Option Message
  | .group fields => some fields
  | _ => none

/-- Whether a payload carries a value of a kind that is not a message. -/
def Linked.Kind.carries (kind : Kind) (p : Payload) : Bool :=
  kind.scalar?.any fun type => (type.normal? p).isSome

/-- The values that are written together in a payload. -/
def Linked.Kind.packed? (kind : Kind) (p : Payload) : Option (List Value) :=
  if kind.isPackable then
    p.bytes?.bind fun content => Types.readPacked? kind content.length content
  else none

namespace Types

/-! ### What is taken -/

section

variable (t : Types) (takes : String → Message → Bool) (n : Nat)

/-- Whether a payload is one value; `takes` decides about messages. -/
def takesOne (kind : Kind) (p : Payload) : Bool :=
  match kind with
  | .message type => p.bytes?.any fun content => (Message.read? content).any (takes type)
  | .group type => p.group?.any (takes type)
  | kind => kind.carries p

/-- Whether fields can be the key and the value of a map: a key is no message, and where a message
    is not set there is a level left for it. -/
def makesEntries (key value : Field) : Bool :=
  key.kind.scalar?.isSome && !key.repeated && key.defaultValue.isNone
    && !value.repeated && value.defaultValue.isNone
    && (value.kind.message?.isNone || decide (0 < n))

/-- Whether a field is one of an entry of a map. -/
def takesPart (key value : Field) (x : Wire.Field) : Bool :=
  if x.1 = 1 then key.kind.carries x.2
  else if x.1 = 2 then takesOne takes value.kind x.2
  else decide (x.2.cost 1 ≤ n)

/-- Whether a payload is an entry of a map. -/
def takesEntry (key value : Field) (p : Payload) : Bool :=
  p.bytes?.any fun content => (Message.read? content).any (·.all (takesPart takes n key value))

/-- The key and the value of the entries of a field, if it is a map. -/
def entryFields? (f : Field) : Option (Option (Field × Field)) :=
  (t.entryType? f).map fun entry => (entry.field? 1).bind fun key =>
    (entry.field? 2).map fun value => (key, value)

/-- Whether a payload is a value of a field. -/
def takesField (f : Field) (p : Payload) : Bool :=
  match t.entryFields? f with
  | some pair => pair.any fun (key, value) =>
    makesEntries n key value && takesEntry takes n key value p
  | none => takesOne takes f.kind p || (f.repeated && (f.kind.packed? p).isSome)

/-- Whether a field is one of a message type. What the type does not know may nest as deep as there
    are levels left. -/
def admits (type : String) (x : Wire.Field) : Bool :=
  match t.field? type x.1 with
  | some f => t.takesField takes n f x.2
  | none => decide (x.2.cost 0 ≤ n)

end

/-- Whether fields are those of a message of a type, in so many levels of messages. -/
def takes (t : Types) : Nat → String → Message → Bool
  | 0, _, _ => false
  | n + 1, type, m => m.all (t.admits (t.takes n) n type)

/-! ### What is gathered -/

section

variable (t : Types) (gather : String → Record → Message → Record)

/-- One value after another; `gather` adds fields to a message. -/
def gatherOne (kind : Kind) (v : Value) (p : Payload) : Value :=
  match kind with
  | .message type =>
    .message (gather type v.fields ((p.bytes?.bind Message.read?).getD []))
  | .group type => .message (gather type v.fields (p.group?.getD []))
  | kind => .scalar ((kind.scalar?.bind (·.normal? p)).getD p)

/-- The key and the value of an entry of a map with one more field. -/
def gatherPart (key value : Field) (e : Value × Value) (x : Wire.Field) : Value × Value :=
  if x.1 = 1 then (gatherOne gather key.kind e.1 x.2, e.2)
  else if x.1 = 2 then (e.1, gatherOne gather value.kind e.2 x.2)
  else e

/-- The key and the value of an entry of a map with its fields. -/
def gatherEntry (key value : Field) (e : Value × Value) (m : Message) : Value × Value :=
  m.foldl (gatherPart gather key value) e

/-- The value of a field with one more payload. -/
def gatherField (f : Field) (v : Value) (p : Payload) : Value :=
  match t.entryFields? f with
  | some (some (key, value)) =>
    let e := gatherEntry gather key value (t.default key, t.default value)
      ((p.bytes?.bind Message.read?).getD [])
    v.withEntry e.1 e.2
  | some none => v
  | none =>
    if f.repeated then
      match f.kind.packed? p with
      | some more => .list (v.elements ++ more)
      | none => .list (v.elements ++ [gatherOne gather f.kind (.message []) p])
    else gatherOne gather f.kind v p

/-- The record with one more field. -/
def absorb (type : String) (r : Record) (x : Wire.Field) : Record :=
  match t.field? type x.1 with
  | some f => assign r f (t.gatherField gather f (t.valueIn r f) x.2)
  | none => r.addUnknown x.1 x.2

end

/-- The record with the fields of a message, in so many levels of messages. -/
def gather (t : Types) : Nat → String → Record → Message → Record
  | 0, _, r, _ => r
  | n + 1, type, r, m => m.foldl (t.absorb (t.gather n) type) r

theorem gather_cons (t : Types) (n : Nat) (type : String) (r : Record) (x : Wire.Field)
    (m : Message) :
    t.gather (n + 1) type r (x :: m) =
      t.gather (n + 1) type (t.absorb (t.gather n) type r x) m := rfl

theorem mem_of_mem_assign {r : Record} {f : Field} {v : Value} {x : Nat × Value}
    (h : x ∈ assign r f v) : x = (f.number.toNat, v) ∨ x ∈ r :=
  (Record.mem_of_mem_set h).imp_right fun h => (List.mem_filter.mp h).1

/-- What one field after another keeps of a record holds with all of them. -/
theorem gather_induction {t : Types} {type : String} {m : Message} {motive : Record → Prop}
    (hstep : ∀ {gather : String → Record → Message → Record} {r : Record}, ∀ x ∈ m, motive r →
      motive (t.absorb gather type r x)) (n : Nat) {r : Record} (hr : motive r) :
    motive (t.gather n type r m) := by
  cases n with
  | zero => exact hr
  | succ n =>
    induction m generalizing r with
    | nil => exact hr
    | cons x m ih =>
      rw [gather_cons]
      exact ih (fun y hy => hstep y (List.mem_cons_of_mem _ hy)) (hstep x List.mem_cons_self hr)

/-! ### Reading what is taken -/

variable {t : Types} {n fuel number : Nat} {tag : Wire.Tag} {bytes rest : List UInt8} {p : Payload}
  {kind : Kind} {f : Field} {v : Value}

theorem tag_of_normal? {type : Descriptor.Scalar} {q : Payload} (h : type.normal? p = some q) :
    p.tag = type.tag := by
  cases type <;> cases p <;> first | rfl | exact nomatch h

theorem readScalar?_eq (hread : Wire.readContent? number tag bytes = some (p, rest))
    (hcarries : kind.carries p) :
    readScalar? kind tag bytes =
      some (.scalar ((kind.scalar?.bind (·.normal? p)).getD p), rest) := by
  obtain ⟨type, htype, hnormal⟩ := (Option.any_eq_true _ _).mp hcarries
  obtain ⟨q, hq⟩ := Option.isSome_iff_exists.mp hnormal
  have htag := tag_of_normal? hq
  obtain ⟨rfl, hpayload⟩ := Wire.readContent?_plain hread (by rw [htag]; cases type <;> nofun)
  simp [readScalar?, htype, htag, htag ▸ hpayload, hq]

theorem fields_default (t : Types) (f : Field) : (t.default f).fields = [] := by
  unfold default
  split
  · rfl
  · split
    · rfl
    · cases t.defaultPayload? f <;> rfl

theorem gatherOne_of_scalar {gather : String → Record → Message → Record}
    (hkind : kind.scalar?.isSome) :
    gatherOne gather kind v p = .scalar ((kind.scalar?.bind (·.normal? p)).getD p) := by
  cases kind <;> first | rfl | exact nomatch hkind

theorem eq_bytes_of_bytes? {content : List UInt8} (h : p.bytes? = some content) :
    p = .bytes content := by
  cases p <;> first | exact congrArg _ (Option.some.inj h) | exact nomatch h

theorem eq_group_of_group? {fields : Message} (h : p.group? = some fields) : p = .group fields := by
  cases p <;> first | exact congrArg _ (Option.some.inj h) | exact nomatch h

theorem ne_zero_of_takes {type : String} {m : Message} (h : t.takes n type m = true) : n ≠ 0 := by
  rintro rfl
  exact nomatch h

theorem toNat_of_entryField? {entry : Linked.MessageType} (h : entry.field? number = some f) :
    f.number.toNat = number := by
  have hnumber := List.find?_some h
  rw [beq_iff_eq] at hnumber
  rw [hnumber, Int.toNat_natCast]

/-- What it takes for a payload to be a message of a type. -/
theorem takesOne_message {takes : String → Message → Bool} {type : String}
    (h : takesOne takes (.message type) p) :
    ∃ content m, p = .bytes content ∧ Message.read? content = some m ∧ takes type m = true := by
  obtain ⟨content, hcontent, h⟩ := (Option.any_eq_true _ _).mp h
  obtain ⟨m, hm, htakes⟩ := (Option.any_eq_true _ _).mp h
  exact ⟨content, m, eq_bytes_of_bytes? hcontent, hm, htakes⟩

theorem takesOne_group {takes : String → Message → Bool} {type : String}
    (h : takesOne takes (.group type) p) : ∃ m, p = .group m ∧ takes type m = true := by
  obtain ⟨m, hm, htakes⟩ := (Option.any_eq_true _ _).mp h
  exact ⟨m, eq_group_of_group? hm, htakes⟩

theorem takesOne_scalar {takes : String → Message → Bool} (hkind : kind.scalar?.isSome) :
    takesOne takes kind p = kind.carries p := by
  cases kind <;> first | rfl | exact nomatch hkind

theorem entryFields?_eq_some {key value : Field} :
    t.entryFields? f = some (some (key, value)) ↔ ∃ entry, t.entryType? f = some entry ∧
      entry.field? 1 = some key ∧ entry.field? 2 = some value := by
  unfold entryFields?
  constructor
  · intro h
    obtain ⟨entry, hentry, hpair⟩ := Option.map_eq_some_iff.mp h
    obtain ⟨key', hkey, hpair⟩ := Option.bind_eq_some_iff.mp hpair
    obtain ⟨value', hvalue, heq⟩ := Option.map_eq_some_iff.mp hpair
    obtain ⟨rfl, rfl⟩ := Prod.mk.inj heq
    exact ⟨entry, hentry, hkey, hvalue⟩
  · rintro ⟨entry, hentry, hkey, hvalue⟩
    rw [hentry, Option.map_some, hkey, Option.bind_some, hvalue, Option.map_some]

/-- A map is repeated. -/
theorem entryType?_of_singular (h : f.repeated = false) : t.entryType? f = none := by
  simp [entryType?, h]

theorem entryFields?_of_singular (h : f.repeated = false) : t.entryFields? f = none := by
  rw [entryFields?, entryType?_of_singular h, Option.map_none]

theorem takesField_none {takes : String → Message → Bool} (h : t.entryFields? f = none) :
    t.takesField takes n f p =
      (takesOne takes f.kind p || (f.repeated && (f.kind.packed? p).isSome)) := by
  rw [takesField, h]

theorem takesField_singular {takes : String → Message → Bool} (h : f.repeated = false) :
    t.takesField takes n f p = takesOne takes f.kind p := by
  rw [takesField_none (entryFields?_of_singular h), h, Bool.false_and, Bool.or_false]

theorem gatherField_singular {gather : String → Record → Message → Record}
    (h : f.repeated = false) (v : Value) (p : Payload) :
    t.gatherField gather f v p = gatherOne gather f.kind v p := by
  rw [gatherField, entryFields?_of_singular h, h]
  rfl

theorem key_of_makesEntries {key value : Field} (h : makesEntries n key value) :
    key.kind.scalar?.isSome := by
  simp only [makesEntries, Bool.and_eq_true] at h
  exact h.1.1.1.1.1

theorem value_of_makesEntries {key value : Field} (h : makesEntries n key value) :
    value.repeated = false := by
  simp only [makesEntries, Bool.and_eq_true, Bool.not_eq_true'] at h
  exact h.1.1.2

/-- What it takes for a payload to be an entry of a map. -/
theorem takesField_entry {takes : String → Message → Bool} {pair : Option (Field × Field)}
    (h : t.entryFields? f = some pair) (htakes : t.takesField takes n f p) :
    ∃ key value content m, pair = some (key, value) ∧ makesEntries n key value = true ∧
      p = .bytes content ∧ Message.read? content = some m ∧
      ∀ x ∈ m, takesPart takes n key value x = true := by
  rw [takesField, h] at htakes
  obtain ⟨⟨key, value⟩, rfl, hpair⟩ := (Option.any_eq_true _ _).mp htakes
  obtain ⟨hmakes, htakes⟩ := (Bool.and_eq_true _ _).mp hpair
  obtain ⟨content, hcontent, htakes⟩ := (Option.any_eq_true _ _).mp htakes
  obtain ⟨m, hm, htakes⟩ := (Option.any_eq_true _ _).mp htakes
  exact ⟨key, value, content, m, rfl, hmakes, eq_bytes_of_bytes? hcontent, hm,
    List.all_eq_true.mp htakes⟩

theorem packed?_eq_some {more : List Value} (h : kind.packed? p = some more) :
    kind.isPackable ∧ ∃ content, p = .bytes content ∧
      readPacked? kind content.length content = some more := by
  unfold Linked.Kind.packed? at h
  split at h
  case isTrue hpackable =>
    obtain ⟨content, hcontent, hmore⟩ := Option.bind_eq_some_iff.mp h
    exact ⟨hpackable, content, eq_bytes_of_bytes? hcontent, hmore⟩
  case isFalse => exact nomatch h

/-- One value that could be written together with others is not carried as they would be. -/
theorem tag_ne_bytes_of_isPackable {takes : String → Message → Bool}
    (hread : Wire.readContent? number tag bytes = some (p, rest)) (htakes : takesOne takes kind p) :
    ¬ (tag = .bytes ∧ kind.isPackable = true) := by
  rintro ⟨rfl, hpackable⟩
  obtain ⟨type, htype, hne⟩ := (Option.any_eq_true _ _).mp hpackable
  have hcarries : kind.carries p := by
    cases kind <;> first | exact htakes | exact nomatch htype
  obtain ⟨type', htype', hnormal⟩ := (Option.any_eq_true _ _).mp hcarries
  obtain ⟨q, hq⟩ := Option.isSome_iff_exists.mp hnormal
  obtain rfl := Option.some.inj (htype.symm.trans htype')
  have htag := tag_of_normal? hq
  have hplain := Wire.readContent?_plain hread (by rw [htag]; cases type <;> nofun)
  rw [← htag, ← hplain.1] at hne
  exact absurd rfl (bne_iff_ne.mp hne)

/-- Fields that are taken are read to what is gathered of them, in so many levels, if there are two
    steps for each byte that they take. -/
def Follows (t : Types) (n : Nat) : Prop :=
  ∀ {inGroup : Option Nat} {type : String} {r : Record} {bytes rest : List UInt8} {m : Message}
    {fuel : Nat}, Parses inGroup bytes m rest → t.takes n type m = true →
    2 * bytes.length + (if inGroup.isSome then 0 else 1) ≤ fuel + 2 * rest.length →
    t.mergeFields fuel (n - 1) type inGroup r bytes = some (t.gather n type r m, rest)

namespace Follows

variable (h : t.Follows n)
include h

theorem mergeOne (hread : Wire.readContent? number tag bytes = some (p, rest))
    (htakes : takesOne (t.takes n) kind p)
    (hfuel : 2 * bytes.length + 1 ≤ fuel + 2 * rest.length) :
    t.mergeOne fuel n kind number tag v bytes =
      some (gatherOne (t.gather n) kind v p, rest) := by
  have hlength := Wire.length_le_of_readContent? hread
  cases fuel with
  | zero => omega
  | succ fuel =>
    cases kind with
    | message type =>
      obtain ⟨content, m, rfl, hm, hmessage⟩ := takesOne_message htakes
      obtain ⟨rfl, hdelimited⟩ := Wire.readContent?_bytes hread
      have hshorter := (Wire.readDelimited?_eq_some hdelimited).2
      have hfields := @h none type v.fields content [] m fuel (Message.read?_eq_some_iff.mp hm)
        hmessage (by simp; omega)
      simp [Types.mergeOne, ne_zero_of_takes hmessage, hdelimited, hfields, gatherOne,
        Payload.bytes?, hm]
    | group type =>
      obtain ⟨fields, rfl, hmessage⟩ := takesOne_group htakes
      obtain ⟨rfl, hparses⟩ := Wire.readContent?_group hread
      have hfields := @h (some number) type v.fields bytes rest fields fuel hparses hmessage
        (by simp; omega)
      simp [Types.mergeOne, ne_zero_of_takes hmessage, hfields, gatherOne, Payload.group?]
    | scalar | enumeration =>
      simp only [Types.mergeOne]
      exact readScalar?_eq hread htakes

/-- One payload of a field that is not repeated. -/
theorem mergeValue_single (hrepeated : f.repeated = false)
    (hread : Wire.readContent? number tag bytes = some (p, rest))
    (hnumber : number = f.number.toNat) (htakes : takesOne (t.takes n) f.kind p)
    (hfuel : 2 * bytes.length + 2 ≤ fuel + 2 * rest.length) :
    t.mergeValue fuel n f tag v bytes = some (gatherOne (t.gather n) f.kind v p, rest) := by
  have hlength := Wire.length_le_of_readContent? hread
  cases fuel with
  | zero => omega
  | succ fuel =>
    simp only [Types.mergeValue, entryType?_of_singular hrepeated, hrepeated, Bool.not_false,
      if_true]
    exact h.mergeOne (hnumber ▸ hread) htakes (by omega)

/-- The fields of an entry, one after the other. -/
theorem mergeEntry {key value : Field} {e : Value × Value} {m : Message}
    (hkey : key.kind.scalar?.isSome) (hvalue : value.repeated = false)
    (hnumber : value.number.toNat = 2) (hparses : Parses none bytes m [])
    (htakes : ∀ x ∈ m, takesPart (t.takes n) n key value x = true)
    (hfuel : 2 * bytes.length + 1 ≤ fuel) :
    t.mergeEntry fuel n key value e bytes = some (gatherEntry (t.gather n) key value e m) := by
  induction m generalizing bytes fuel e with
  | nil =>
    rcases hparses.of_nil with ⟨-, rfl, -⟩ | ⟨number, hgroup, -⟩
    · cases fuel with
      | zero => exact absurd hfuel (by simp)
      | succ fuel =>
        obtain ⟨kept, held⟩ := e
        simp [Types.mergeEntry, gatherEntry]
    · cases hgroup
  | cons x m ih =>
    obtain ⟨tag, start, middle, hkeyRead, -, hcontent, hmore⟩ := hparses.uncons
    obtain ⟨hx, hm⟩ := List.forall_mem_cons.mp htakes
    have hstart := (Wire.readKey?_eq_some hkeyRead).2
    have hmiddle := Wire.length_le_of_readContent? hcontent
    obtain ⟨kept, held⟩ := e
    cases fuel with
    | zero => omega
    | succ fuel =>
      rw [Types.mergeEntry, Parses.ne_nil_of_readKey? hkeyRead, if_neg Bool.false_ne_true, hkeyRead,
        gatherEntry, List.foldl_cons, ← gatherEntry, gatherPart]
      simp only [Option.bind_eq_bind, Option.bind_some]
      unfold takesPart at hx
      split at hx
      case isTrue hone =>
        rw [if_pos hone, readScalar?_eq hcontent hx, Option.bind_some, if_pos hone,
          ih hmore hm (by omega), gatherOne_of_scalar hkey]
      case isFalse hone =>
        rw [if_neg hone, if_neg hone]
        split at hx
        case isTrue htwo =>
          rw [if_pos htwo, if_pos htwo,
            h.mergeValue_single hvalue hcontent (htwo.trans hnumber.symm) hx (by omega),
            Option.bind_some, ih hmore hm (by omega)]
        case isFalse htwo =>
          rw [if_neg htwo, if_neg htwo, hcontent, Option.bind_some, if_pos (of_decide_eq_true hx),
            ih hmore hm (by omega)]

/-- One payload of a field. -/
theorem mergeValue (hread : Wire.readContent? number tag bytes = some (p, rest))
    (hnumber : number = f.number.toNat) (htakes : t.takesField (t.takes n) n f p)
    (hfuel : 2 * bytes.length + 2 ≤ fuel + 2 * rest.length) :
    t.mergeValue fuel n f tag v bytes = some (t.gatherField (t.gather n) f v p, rest) := by
  have hlength := Wire.length_le_of_readContent? hread
  cases hfields : t.entryFields? f with
  | some pair =>
    obtain ⟨key, value, content, m, rfl, hmakes, rfl, hm, hparts⟩ := takesField_entry hfields htakes
    obtain ⟨entry, hentry, hkey, hvalue⟩ := entryFields?_eq_some.mp hfields
    obtain ⟨rfl, hdelimited⟩ := Wire.readContent?_bytes hread
    have hshorter := (Wire.readDelimited?_eq_some hdelimited).2
    cases fuel with
    | zero => omega
    | succ fuel =>
      have hmerged := @mergeEntry t n fuel content h key value (t.default key, t.default value) m
        (key_of_makesEntries hmakes) (value_of_makesEntries hmakes) (toNat_of_entryField? hvalue)
        (Message.read?_eq_some_iff.mp hm) hparts (by omega)
      simp [Types.mergeValue, hentry, hkey, hvalue, hdelimited, hmerged, gatherField, hfields,
        Payload.bytes?, hm]
  | none =>
    have hentry : t.entryType? f = none := Option.map_eq_none_iff.mp hfields
    rw [takesField_none hfields, Bool.or_eq_true, Bool.and_eq_true] at htakes
    cases hrepeated : f.repeated with
    | false =>
      rw [hrepeated] at htakes
      rw [gatherField, hfields, hrepeated]
      exact h.mergeValue_single hrepeated hread hnumber (htakes.resolve_right (by simp)) hfuel
    | true =>
      cases fuel with
      | zero => omega
      | succ fuel =>
        simp only [Types.mergeValue, hentry, hrepeated, Bool.not_true, Bool.false_eq_true, if_false,
          gatherField, hfields, if_true]
        cases hpacked : f.kind.packed? p with
        | some more =>
          obtain ⟨hpackable, content, rfl, hmore⟩ := packed?_eq_some hpacked
          obtain ⟨rfl, hdelimited⟩ := Wire.readContent?_bytes hread
          simp [hpackable, hdelimited, hmore]
        | none =>
          have hone : takesOne (t.takes n) f.kind p := htakes.resolve_right (by simp [hpacked])
          have htag := tag_ne_bytes_of_isPackable hread hone
          rw [hnumber] at hread
          rw [if_neg (by simpa using htag), h.mergeOne hread hone (by omega)]
          rfl

theorem succ (ht : t.Numbered) : t.Follows (n + 1) := by
  intro inGroup type r bytes rest m fuel hparses htakes hfuel
  induction m generalizing r bytes fuel with
  | nil =>
    rcases hparses.of_nil with ⟨rfl, rfl, rfl⟩ | ⟨number, rfl, hkey⟩
    · cases fuel with
      | zero => exact absurd hfuel (by simp)
      | succ fuel => simp [mergeFields, gather]
    · cases fuel with
      | zero =>
        have hlength := (Wire.readKey?_eq_some hkey).2
        omega
      | succ fuel => simp [mergeFields, gather, hkey]
  | cons x m ih =>
    obtain ⟨tag, start, middle, hkey, hend, hcontent, hmore⟩ := hparses.uncons
    rw [takes, List.all_cons, Bool.and_eq_true] at htakes
    obtain ⟨hx, hm⟩ := htakes
    have hstart := (Wire.readKey?_eq_some hkey).2
    have hmiddle := Wire.length_le_of_readContent? hcontent
    have hrest := hmore.length_le
    have hgroup : (if inGroup.isSome then 0 else 1) + (if inGroup.isSome then 1 else 0) = 1 := by
      split <;> rfl
    cases fuel with
    | zero => omega
    | succ fuel =>
      rw [mergeFields, Parses.ne_nil_of_readKey? hkey, Bool.false_and, if_neg Bool.false_ne_true,
        hkey]
      simp only [Option.bind_eq_bind, Option.bind_some, if_neg hend, Nat.add_sub_cancel]
      rw [gather, List.foldl_cons, ← gather, absorb]
      cases hfield : t.field? type x.1 with
      | some f =>
        rw [admits, hfield] at hx
        simp only
        rw [h.mergeValue hcontent (toNat_of_field? ht hfield).symm hx (by omega), Option.bind_some]
        exact ih hmore hm (by dsimp only; omega)
      | none =>
        rw [admits, hfield] at hx
        simp only
        rw [hcontent, Option.bind_some, if_pos (of_decide_eq_true hx)]
        exact ih hmore hm (by dsimp only; omega)

end Follows

/-- Fields that are taken are read to what is gathered of them. -/
theorem follows (ht : t.Numbered) (n : Nat) : t.Follows n := by
  induction n with
  | zero =>
    intro inGroup type r bytes rest m fuel _ htakes
    exact nomatch htakes
  | succ n ih => exact ih.succ ht

/-- A message that is taken is read to what is gathered of its fields. -/
theorem read?_eq (ht : t.Numbered) {type : String} {m : Message} (hm : Message.read? bytes = some m)
    (htakes : t.takes (Wire.Schema.nestingLimit + 1) type m) :
    t.read? type bytes = some (t.gather (Wire.Schema.nestingLimit + 1) type [] m) := by
  have hfields := @follows t ht (Wire.Schema.nestingLimit + 1) none type [] bytes [] m
    (2 * bytes.length + 2) (Message.read?_eq_some_iff.mp hm) htakes (by simp)
  rw [Nat.add_sub_cancel] at hfields
  rw [read?, hfields]
  rfl

end Types

end GoBindings

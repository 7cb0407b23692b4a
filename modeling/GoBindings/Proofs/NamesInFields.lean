/-
  GoBindings/Proofs/NamesInFields.lean
  ====================================
  **The name that options choose, told from their fields.**

  What stands under a number once fields are gathered depends on the fields with this number
  (`Types.lookup_gather_unknown`, `Types.lookup_gather_message`) and, for one value of a oneof, on
  the other members of the oneof (`Types.lookup_gather_text`). So the name that options choose is
  found in their fields without a record (`Types.choice?`, `Pool.chosenName?_eq`): the messages
  under the number of the choice are merged, and in these the last text counts.
-/
import GoBindings.Pool.Override
import GoBindings.Proofs.ChosenNames
import GoBindings.Proofs.Gathering

namespace GoBindings

open Linked (Field Kind)
open Wire (Payload Message)

/-! ### Looking up in records -/

namespace Record

variable {r : Record} {k n : Nat} {v : Value}

theorem lookup_filter (p : Nat → Bool) (r : Record) (k : Nat) :
    List.lookup k (r.filter fun x => p x.1) = if p k then r.lookup k else none := by
  induction r with
  | nil => cases p k <;> rfl
  | cons x rest ih =>
    obtain ⟨number, v⟩ := x
    rw [List.filter_cons, List.lookup_cons]
    by_cases hk : k = number
    · subst hk
      cases hp : p k <;> simp [ih, hp]
    · have hne : (k == number) = false := beq_false_of_ne hk
      cases p number <;> simp [List.lookup_cons, hne, ih]

@[simp] theorem lookup_set_self (r : Record) (n : Nat) (v : Value) :
    (r.set n v).lookup n = some v := by
  rw [set, List.lookup_append, lookup_filter (fun m => decide (m < n))]
  simp

theorem lookup_set_of_ne (h : k ≠ n) : (r.set n v).lookup k = r.lookup k := by
  rw [set, List.lookup_append, List.lookup_cons, lookup_filter (fun m => decide (m < n)),
    lookup_filter (fun m => decide (n < m))]
  have hne : (k == n) = false := beq_false_of_ne h
  rcases Nat.lt_or_gt_of_ne h with hlt | hgt
  · simp [hne, hlt, Nat.lt_asymm hlt]
  · simp [hne, hgt, Nat.lt_asymm hgt]

theorem lookup_addUnknown_of_ne (h : k ≠ n) (p : Payload) :
    (r.addUnknown n p).lookup k = r.lookup k := by
  unfold addUnknown
  split <;> exact lookup_set_of_ne h

theorem value?_of_lookup_message {fields : Record} (h : r.lookup n = some (.message fields)) :
    r.value? n = some (.message fields) := by
  rw [value?, h]

theorem lookup_without (r : Record) (numbers : List Nat) (k : Nat) :
    (r.without numbers).lookup k = if numbers.contains k then none else r.lookup k := by
  rw [without, lookup_filter fun n => !numbers.contains n]
  cases numbers.contains k <;> rfl

end Record

namespace Types

variable {t : Types} {n k : Nat} {type inner : String} {f g : Field} {r : Record} {m : Message}

theorem lookup_assign (r : Record) (f : Field) (v : Value) (k : Nat) :
    (assign r f v).lookup k =
      if k = f.number.toNat then some v
      else if f.rivals.contains k then none else r.lookup k := by
  unfold assign
  split
  case isTrue hk => rw [hk, Record.lookup_set_self]
  case isFalse hk => rw [Record.lookup_set_of_ne hk, Record.lookup_without]

/-! ### What stands under a number -/

theorem gather_append (t : Types) (n : Nat) (type : String) (r : Record) (m more : Message) :
    t.gather n type r (m ++ more) = t.gather n type (t.gather n type r m) more := by
  cases n with
  | zero => rfl
  | succ n => exact List.foldl_append

/-- No field unsets another one with this number. -/
def Unrivaled (t : Types) (type : String) (number : Nat) (m : Message) : Prop :=
  ∀ x ∈ m, ∀ f ∈ t.field? type x.1, number ∉ f.rivals

theorem payloads_cons_self (p : Payload) (m : Message) :
    Message.payloads ((k, p) :: m) k = p :: Message.payloads m k := by
  simp [Message.payloads]

theorem payloads_cons_of_ne {x : Wire.Field} (h : x.1 ≠ k) (m : Message) :
    Message.payloads (x :: m) k = Message.payloads m k := by
  simp [Message.payloads, h]

/-- A field with another number leaves what stands under a number as it is. -/
theorem lookup_absorb_of_ne (ht : t.Numbered) {gather : String → Record → Message → Record}
    {x : Wire.Field} (hne : x.1 ≠ k)
    (hrivals : ∀ f, t.field? type x.1 = some f → k ∉ f.rivals) :
    (t.absorb gather type r x).lookup k = r.lookup k := by
  unfold absorb
  cases hfield : t.field? type x.1 with
  | some f =>
    have hcontains : f.rivals.contains k = false := by simpa using hrivals f hfield
    simp only [lookup_assign, toNat_of_field? ht hfield, if_neg hne.symm, hcontains,
      Bool.false_eq_true, if_false]
  | none => exact Record.lookup_addUnknown_of_ne hne.symm x.2

/-- Under a number that no field has stands all that was found there. -/
theorem lookup_gather_unknown (ht : t.Numbered) (hnone : t.field? type k = none)
    (hrivals : t.Unrivaled type k m) {held : List Payload}
    (hr : r.lookup k = if held = [] then none else some (.unknown held)) :
    (t.gather (n + 1) type r m).lookup k =
      if held ++ m.payloads k = [] then none else some (.unknown (held ++ m.payloads k)) := by
  induction m generalizing r held with
  | nil => simpa [gather, Message.payloads] using hr
  | cons x m ih =>
    obtain ⟨hx, hm⟩ := List.forall_mem_cons.mp hrivals
    rw [gather_cons]
    by_cases hk : x.1 = k
    · obtain ⟨number, p⟩ := x
      obtain rfl : number = k := hk
      rw [payloads_cons_self, List.append_cons]
      refine ih hm ?_
      rw [absorb, hnone, if_neg (by simp)]
      unfold Record.addUnknown
      by_cases hheld : held = []
      · rw [hr, if_pos hheld, hheld]
        exact Record.lookup_set_self ..
      · rw [hr, if_neg hheld]
        exact Record.lookup_set_self ..
    · rw [payloads_cons_of_ne hk]
      exact ih hm ((lookup_absorb_of_ne ht hk hx).trans hr)

/-- The fields of a message that a payload carries. -/
def innerFields (kind : Kind) (p : Payload) : Message :=
  match kind with
  | .message _ => (p.bytes?.bind Message.read?).getD []
  | .group _ => p.group?.getD []
  | _ => []

theorem gatherOne_of_message {gather : String → Record → Message → Record} {kind : Kind}
    (hkind : kind.message? = some inner) (v : Value) (p : Payload) :
    gatherOne gather kind v p = .message (gather inner v.fields (innerFields kind p)) := by
  cases kind with
  | message | group =>
    obtain rfl := Option.some.inj hkind
    rfl
  | scalar | enumeration => exact nomatch hkind

/-- Under the number of a field that holds a message stand the messages that were found there,
    merged. -/
theorem lookup_gather_message (ht : t.Numbered) (hf : t.field? type k = some f)
    (hrepeated : f.repeated = false) (hkind : f.kind.message? = some inner)
    (hrivals : t.Unrivaled type k m) {held : Option Record}
    (hr : r.lookup k = held.map .message) :
    (t.gather (n + 1) type r m).lookup k =
      if m.payloads k = [] then held.map .message
      else some (.message (t.gather n inner (held.getD [])
        ((m.payloads k).flatMap (innerFields f.kind)))) := by
  induction m generalizing r held with
  | nil => exact hr
  | cons x m ih =>
    obtain ⟨hx, hm⟩ := List.forall_mem_cons.mp hrivals
    rw [gather_cons]
    by_cases hk : x.1 = k
    · obtain ⟨number, p⟩ := x
      obtain rfl : number = k := hk
      have hfields : (t.valueIn r f).fields = held.getD [] := by
        rw [valueIn, toNat_of_field? ht hf, Record.value?, hr]
        cases held with
        | none => exact fields_default t f
        | some R => rfl
      have hnext : (t.absorb (t.gather n) type r (number, p)).lookup number =
          (some (t.gather n inner (held.getD []) (innerFields f.kind p))).map .message := by
        simp only [absorb, hf, lookup_assign, toNat_of_field? ht hf, if_true,
          gatherField_singular hrepeated, gatherOne_of_message hkind, hfields, Option.map_some]
      rw [ih hm hnext, payloads_cons_self, if_neg (List.cons_ne_nil _ _), List.flatMap_cons,
        gather_append]
      split
      case isTrue hnil => rw [hnil]; cases n <;> rfl
      case isFalse => rfl
    · rw [payloads_cons_of_ne hk]
      exact ih hm ((lookup_absorb_of_ne ht hk hx).trans hr)

/-- The last payload under a number that no other member of its oneof comes after, or one that was
    there before. -/
def last (t : Types) (type : String) (number : Nat) (held : Option Payload) (m : Message) :
    Option Payload :=
  m.foldl (fun held x =>
    if x.1 = number then some x.2
    else if (t.field? type x.1).any (·.rivals.contains number) then none
    else held) held

/-- Under the number of a field that holds a text stands the last one that was found. -/
theorem lookup_gather_text (ht : t.Numbered) (hf : t.field? type k = some f)
    (hrepeated : f.repeated = false) (hkind : f.kind = .scalar .string) {held : Option Payload}
    (hr : r.lookup k = held.map .scalar) :
    (t.gather (n + 1) type r m).lookup k = (t.last type k held m).map .scalar := by
  induction m generalizing r held with
  | nil => exact hr
  | cons x m ih =>
    rw [gather_cons, last, List.foldl_cons, ← last]
    refine ih ?_
    by_cases hk : x.1 = k
    · obtain ⟨number, p⟩ := x
      obtain rfl : number = k := hk
      have hnormal : (Descriptor.Scalar.string.normal? p).getD p = p := by
        cases p with
        | bytes content => rw [Descriptor.Scalar.normal?]; split <;> rfl
        | _ => rfl
      simp only [absorb, hf, lookup_assign, toNat_of_field? ht hf, if_true,
        gatherField_singular hrepeated, hkind, gatherOne, Kind.scalar?, Option.bind_some, hnormal,
        Option.map_some]
    · rw [if_neg hk]
      cases hfield : t.field? type x.1 with
      | some g =>
        simp only [absorb, hfield, lookup_assign, toNat_of_field? ht hfield, if_neg (Ne.symm hk),
          Option.any_some, hr]
        split <;> rfl
      | none =>
        have habsorb : (t.absorb (t.gather n) type r x).lookup k = r.lookup k :=
          lookup_absorb_of_ne ht hk (by simp [hfield])
        rw [habsorb, hr]
        rfl

/-! ### The name that is chosen -/

/-- The text called `name` in the fields of a message. -/
def textIn? (t : Types) (inner : String) (m : Message) : Option String := do
  let type ← t.message? inner
  let f ← type.fields.find? (·.name == "name")
  if f.kind = .scalar .string ∧ f.repeated = false then
    let p ← (t.last inner f.number.toNat none m).or (t.defaultPayload? f)
    let content ← p.bytes?
    Text.ofUtf8? content
  else none

/-- The name that the fields of options choose by a message under a number. -/
def choice? (t : Types) (number : Nat) (type : String) (m : Message) : Option String := do
  let f ← t.field? type number
  let inner ← f.kind.message?
  if f.repeated = false ∧ m.payloads number ≠ [] then
    (t.textIn? inner ((m.payloads number).flatMap (innerFields f.kind))).filter fun name =>
      !name.isEmpty
  else none

theorem nameIn?_gather (ht : t.Numbered)
    (hfits : t.RecordFits inner (t.gather (n + 1) inner [] m)) :
    Pool.nameIn? t inner (t.gather (n + 1) inner [] m) = t.textIn? inner m := by
  unfold Pool.nameIn? textIn?
  cases htype : t.message? inner with
  | none => rfl
  | some type =>
    cases hname : type.fields.find? (·.name == "name") with
    | none => simp [hname]
    | some f =>
      have hmem := List.mem_of_find?_eq_some hname
      simp only [Option.bind_eq_bind, Option.bind_some, hname]
      by_cases hkind : f.kind = .scalar .string
      case neg => simp [hkind]
      cases hrepeated : f.repeated with
      | true =>
        -- a repeated field has no text
        simp only [hkind, if_true, Bool.true_eq_false, and_false, if_false]
        split
        case h_1 content hvalue =>
          have hsingle := singular_of_valueIn ht hfits htype hmem hvalue
          rw [hrepeated] at hsingle
          exact nomatch hsingle
        case h_2 => rfl
      | false =>
        have hf := field?_of_mem ht htype hmem
        have hnone : List.lookup f.number.toNat ([] : Record) = Option.map Value.scalar none := rfl
        have hlookup := lookup_gather_text (n := n) (m := m) ht hf hrepeated hkind hnone
        obtain ⟨d, hd⟩ : ∃ d, t.defaultPayload? f = some d := by simp [defaultPayload?, hkind]
        have hvalue : t.valueIn (t.gather (n + 1) inner [] m) f =
            .scalar ((t.last inner f.number.toNat none m).getD d) := by
          rw [valueIn, Record.value?, hlookup, default, entryType?_of_singular hrepeated,
            hrepeated, hd]
          cases t.last inner f.number.toNat none m <;> rfl
        rw [hvalue, hd]
        simp only [hkind, and_self, if_true]
        cases t.last inner f.number.toNat none m with
        | none => cases d <;> rfl
        | some p => cases p <;> rfl

end Types

namespace Pool

open Wire.Schema (nestingLimit)

variable {p : Pool} {type : String} {options : List UInt8} {number : Nat} {m : Message}

/-- The pool finds the name that the fields of options choose, if it takes them. -/
theorem chosenName?_eq (ht : (p.typesFor type).Numbered) (hm : Message.read? options = some m)
    (htakes : (p.typesFor type).takes (nestingLimit + 1) type m)
    (hrivals : (p.typesFor type).Unrivaled type number m) :
    p.chosenName? number type options = (p.typesFor type).choice? number type m := by
  have hread := Types.read?_eq ht hm htakes
  unfold chosenName? Types.choice?
  simp only [hread, Option.bind_eq_bind, Option.bind_some]
  cases hf : (p.typesFor type).field? type number with
  | none => rfl
  | some f =>
    cases hinner : f.kind.message? with
    | none => simp [hinner]
    | some inner =>
      simp only [hinner, Option.bind_some]
      cases hrepeated : f.repeated with
      | true =>
        simp only [Bool.true_eq_false, false_and, if_false]
        split
        case h_1 fields hvalue =>
          have hsingle :=
            (Types.singular_of_value? (Types.recordFits_of_read? ht hread) hf hvalue).1
          rw [hrepeated] at hsingle
          exact nomatch hsingle
        case h_2 => rfl
      | false =>
        have hnone : List.lookup number ([] : Record) = Option.map Value.message none := rfl
        have hlookup := Types.lookup_gather_message (n := nestingLimit) ht hf hrepeated hinner
          hrivals hnone
        by_cases hnil : m.payloads number = []
        · rw [if_pos hnil] at hlookup
          rw [Record.value?, hlookup]
          simp [hnil]
        · rw [if_neg hnil] at hlookup
          have hvalue := Record.value?_of_lookup_message hlookup
          have hfits :=
            (Types.singular_of_value? (Types.recordFits_of_read? ht hread) hf hvalue).2 inner hinner
          rw [hvalue]
          simp only [hnil, ne_eq, not_false_eq_true, and_self, if_true]
          exact congrArg (Option.filter _) (Types.nameIn?_gather ht hfits)

end Pool

end GoBindings

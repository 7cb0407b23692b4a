/-
  GoBindings/Proofs/Taking.lean
  =============================
  **What can be read is taken.**

  Reading succeeds also where a map does not carry its entries as it should. If types that know
  more of a message take all of it, that is ruled out, and what was read without knowing more was
  taken (`Types.takes_of_grows`), by induction on the levels of messages. Where what is known of a
  message is a number here and there, nothing needs to be ruled out
  (`Types.takes_of_oneNumbers`).
-/
import GoBindings.Proofs.EarlyOptions

namespace GoBindings

open Linked (Field Kind)
open Wire (Payload Message Parses)

namespace Types

variable {t t' : Types} {n fuel number : Nat} {tag : Wire.Tag} {type : String} {f : Field}
  {kind : Kind} {v w : Value} {p : Payload} {r : Record} {m : Message}
  {bytes after rest : List UInt8}

/-! ### One field after the other -/

/-- Whether reading a field of a message means that its payload was taken. -/
def TakesRead (t : Types) (n : Nat) (f : Field) (p : Payload) : Prop :=
  ∀ {fuel : Nat} {tag : Wire.Tag} {v w : Value} {bytes rest after : List UInt8},
    Wire.readContent? f.number.toNat tag bytes = some (p, rest) →
    t.mergeValue fuel n f tag v bytes = some (w, after) →
    t.takesField (t.takes n) n f p = true ∧ after = rest

/-- Fields of which reading means taking are all taken if the message is read. -/
theorem takes_of_mergeFields (ht : t.Numbered) {inGroup : Option Nat} {result : Record × List UInt8}
    (hparses : Parses inGroup bytes m rest)
    (hfields : ∀ x ∈ m, ∀ f, t.field? type x.1 = some f → t.TakesRead n f x.2)
    (hmerge : t.mergeFields fuel n type inGroup r bytes = some result) :
    t.takes (n + 1) type m = true ∧ result.2 = rest := by
  induction m generalizing r bytes fuel with
  | nil =>
    refine ⟨rfl, ?_⟩
    cases fuel with
    | zero => simp [mergeFields] at hmerge
    | succ fuel =>
      rcases hparses.of_nil with ⟨rfl, rfl, rfl⟩ | ⟨number, rfl, hkey⟩
      · rw [mergeFields] at hmerge
        rw [← Option.some.inj hmerge]
      · simp only [mergeFields, Option.isNone_some, Bool.and_false, Bool.false_eq_true, if_false,
          hkey, Option.bind_eq_bind, Option.bind_some, if_true] at hmerge
        rw [← Option.some.inj hmerge]
  | cons x m ih =>
    obtain ⟨tag, start, middle, hkey, hend, hcontent, hmore⟩ := hparses.uncons
    obtain ⟨hx, hm⟩ := List.forall_mem_cons.mp hfields
    rw [takes, List.all_cons, Bool.and_eq_true, admits]
    cases fuel with
    | zero => simp [mergeFields] at hmerge
    | succ fuel =>
      rw [mergeFields, Parses.ne_nil_of_readKey? hkey, Bool.false_and, if_neg Bool.false_ne_true,
        hkey] at hmerge
      simp only [Option.bind_eq_bind, Option.bind_some, if_neg hend] at hmerge
      cases hfield : t.field? type x.1 with
      | some f =>
        rw [hfield] at hmerge
        obtain ⟨⟨w, after⟩, hvalue, hmerge⟩ := Option.bind_eq_some_iff.mp hmerge
        rw [← toNat_of_field? ht hfield] at hcontent
        obtain ⟨htakes, rfl⟩ := hx f hfield hcontent hvalue
        obtain ⟨hall, hrest⟩ := ih hmore hm hmerge
        exact ⟨⟨htakes, hall⟩, hrest⟩
      | none =>
        rw [hfield] at hmerge
        simp only [hcontent, Option.bind_some] at hmerge
        obtain ⟨hcost, hmerge⟩ := Option.ite_none_right_eq_some.mp hmerge
        obtain ⟨hall, hrest⟩ := ih hmore hm hmerge
        exact ⟨⟨decide_eq_true hcost, hall⟩, hrest⟩

theorem takes_of_read? (ht : t.Numbered) (hm : Message.read? bytes = some m)
    (hfields : ∀ x ∈ m, ∀ f, t.field? type x.1 = some f →
      t.TakesRead Wire.Schema.nestingLimit f x.2)
    (hread : t.read? type bytes = some r) :
    t.takes (Wire.Schema.nestingLimit + 1) type m = true := by
  obtain ⟨result, hmerge, -⟩ := Option.map_eq_some_iff.mp hread
  exact (takes_of_mergeFields ht (Message.read?_eq_some_iff.mp hm) hfields hmerge).1

/-! ### Numbers -/

theorem mergeOne_scalar (hkind : kind.scalar?.isSome) :
    t.mergeOne (fuel + 1) n kind number tag v bytes = readScalar? kind tag bytes := by
  cases kind with
  | message | group => exact nomatch hkind
  | scalar | enumeration => simp only [mergeOne]

/-- Reading one payload of a field that is not repeated. -/
theorem mergeOne_of_mergeValue (hrepeated : f.repeated = false)
    (hmerge : t.mergeValue fuel n f tag v bytes = some (w, after)) :
    ∃ fuel', t.mergeOne (fuel' + 1) n f.kind f.number.toNat tag v bytes = some (w, after) := by
  cases fuel with
  | zero => simp [mergeValue] at hmerge
  | succ fuel =>
    simp only [mergeValue, entryType?_of_singular hrepeated, hrepeated, Bool.not_false,
      if_true] at hmerge
    cases fuel with
    | zero => simp [mergeOne] at hmerge
    | succ fuel => exact ⟨fuel, hmerge⟩

theorem IsOneNumber.takesRead (h : IsOneNumber f) (p : Payload) : t.TakesRead n f p := by
  intro fuel tag v w bytes rest after hread hmerge
  obtain ⟨scalar, hscalar, htag⟩ := h.varint
  obtain ⟨fuel', hone⟩ := mergeOne_of_mergeValue h.repeated hmerge
  rw [h.takesField_iff]
  rw [mergeOne_scalar (Option.isSome_of_eq_some hscalar), readScalar?, hscalar] at hone
  simp only [Option.bind_eq_bind, Option.bind_some] at hone
  obtain ⟨rfl, hone⟩ := Option.ite_none_right_eq_some.mp hone
  obtain ⟨⟨q, middle⟩, hpayload, hone⟩ := Option.bind_eq_some_iff.mp hone
  obtain ⟨normal, -, hone⟩ := Option.bind_eq_some_iff.mp hone
  obtain ⟨-, rfl⟩ := Prod.mk.inj (Option.some.inj hone)
  rw [htag] at hread hpayload
  obtain ⟨⟨a, end'⟩, -, heq⟩ := Option.map_eq_some_iff.mp hpayload
  obtain ⟨rfl, rfl⟩ := Prod.mk.inj heq
  obtain ⟨rfl, hrest⟩ := Prod.mk.inj (Option.some.inj (hread.symm.trans hpayload))
  exact ⟨⟨a, rfl⟩, hrest.symm⟩

theorem takes_of_oneNumbers (ht : t.Numbered) (hone : t.OneNumbers type m)
    (hm : Message.read? bytes = some m) (hread : t.read? type bytes = some r) :
    t.takes (Wire.Schema.nestingLimit + 1) type m = true :=
  takes_of_read? ht hm (fun x hx f hf => (hone x hx f hf).takesRead x.2) hread

/-! ### Types that know more -/

/-- Whether the fields of a message that later types take were taken if the message was read, at
    one level. -/
def Reflects (t t' : Types) (n : Nat) : Prop :=
  ∀ {fuel : Nat} {inGroup : Option Nat} {type : String} {r : Record} {m : Message}
    {bytes rest : List UInt8} {result : Record × List UInt8},
    Parses inGroup bytes m rest → t'.takes n type m = true →
    t.mergeFields fuel (n - 1) type inGroup r bytes = some result →
    t.takes n type m = true ∧ result.2 = rest

namespace Reflects

variable (h : t.Reflects t' n)
include h

theorem one (hread : Wire.readContent? number tag bytes = some (p, rest))
    (htakes : takesOne (t'.takes n) kind p)
    (hmerge : t.mergeOne fuel n kind number tag v bytes = some (w, after)) :
    takesOne (t.takes n) kind p = true ∧ after = rest := by
  cases fuel with
  | zero => simp [mergeOne] at hmerge
  | succ fuel =>
    cases kind with
    | message type =>
      obtain ⟨content, m, rfl, hm, hmessage⟩ := takesOne_message htakes
      obtain ⟨rfl, hdelimited⟩ := Wire.readContent?_bytes hread
      simp only [mergeOne] at hmerge
      obtain ⟨-, hmerge⟩ := Option.ite_none_right_eq_some.mp hmerge
      simp only [hdelimited, Option.bind_eq_bind, Option.bind_some] at hmerge
      obtain ⟨result, hfields, heq⟩ := Option.bind_eq_some_iff.mp hmerge
      obtain ⟨-, rfl⟩ := Prod.mk.inj (Option.some.inj heq)
      have hinner := h (Message.read?_eq_some_iff.mp hm) hmessage hfields
      exact ⟨by simp [takesOne, Payload.bytes?, hm, hinner.1], rfl⟩
    | group type =>
      obtain ⟨fields, rfl, hmessage⟩ := takesOne_group htakes
      obtain ⟨rfl, hparses⟩ := Wire.readContent?_group hread
      simp only [mergeOne] at hmerge
      obtain ⟨-, hmerge⟩ := Option.ite_none_right_eq_some.mp hmerge
      obtain ⟨result, hfields, heq⟩ := Option.bind_eq_some_iff.mp hmerge
      obtain ⟨-, rfl⟩ := Prod.mk.inj (Option.some.inj heq)
      have hinner := h hparses hmessage hfields
      exact ⟨by simp [takesOne, Payload.group?, hinner.1], hinner.2⟩
    | scalar | enumeration =>
      simp only [mergeOne] at hmerge
      obtain ⟨-, heq⟩ := Prod.mk.inj
        (Option.some.inj ((readScalar?_eq hread htakes).symm.trans hmerge))
      exact ⟨htakes, heq.symm⟩

/-- The fields of an entry, one after the other. -/
theorem entry {key value : Field} {e e' : Value × Value} (hvalue : value.repeated = false)
    (hnumber : value.number.toNat = 2) (hparses : Parses none bytes m [])
    (htakes : ∀ x ∈ m, takesPart (t'.takes n) n key value x = true)
    (hmerge : t.mergeEntry fuel n key value e bytes = some e') :
    ∀ x ∈ m, takesPart (t.takes n) n key value x = true := by
  induction m generalizing bytes fuel e with
  | nil => exact List.forall_mem_nil _
  | cons x m ih =>
    obtain ⟨tag, start, middle, hkey, -, hcontent, hmore⟩ := hparses.uncons
    obtain ⟨hx, hm⟩ := List.forall_mem_cons.mp htakes
    obtain ⟨kept, held⟩ := e
    cases fuel with
    | zero => simp [mergeEntry] at hmerge
    | succ fuel =>
      rw [mergeEntry, Parses.ne_nil_of_readKey? hkey, if_neg Bool.false_ne_true, hkey] at hmerge
      simp only [Option.bind_eq_bind, Option.bind_some] at hmerge
      rw [List.forall_mem_cons]
      unfold takesPart at hx ⊢
      split at hx
      case isTrue hone =>
        rw [if_pos hone, readScalar?_eq hcontent hx, Option.bind_some] at hmerge
        exact ⟨by rwa [if_pos hone], ih hmore hm hmerge⟩
      case isFalse hone =>
        rw [if_neg hone] at hmerge
        rw [if_neg hone]
        split at hx
        case isTrue htwo =>
          rw [if_pos htwo] at hmerge
          obtain ⟨⟨w, after⟩, hread, hmerge⟩ := Option.bind_eq_some_iff.mp hmerge
          obtain ⟨fuel', hread⟩ := mergeOne_of_mergeValue hvalue hread
          rw [htwo, ← hnumber] at hcontent
          obtain ⟨hpart, rfl⟩ := h.one hcontent hx hread
          exact ⟨by rwa [if_pos htwo], ih hmore hm hmerge⟩
        case isFalse htwo =>
          rw [if_neg htwo, hcontent, Option.bind_some, if_pos (of_decide_eq_true hx)] at hmerge
          exact ⟨by rwa [if_neg htwo], ih hmore hm hmerge⟩

theorem field (hentry : t'.entryFields? f = t.entryFields? f)
    (htakes : t'.takesField (t'.takes n) n f p) : t.TakesRead n f p := by
  intro fuel tag v w bytes rest after hread hmerge
  cases hfields : t.entryFields? f with
  | some pair =>
    obtain ⟨key, value, content, m, rfl, hmakes, rfl, hm, hparts⟩ :=
      takesField_entry (hentry.trans hfields) htakes
    obtain ⟨entry, hentryType, hkey, hvalue⟩ := entryFields?_eq_some.mp hfields
    obtain ⟨rfl, hdelimited⟩ := Wire.readContent?_bytes hread
    cases fuel with
    | zero => simp [mergeValue] at hmerge
    | succ fuel =>
      simp only [mergeValue, hentryType, hkey, hvalue, hdelimited, Option.bind_eq_bind,
        Option.bind_some] at hmerge
      obtain ⟨e, hmerged, heq⟩ := Option.bind_eq_some_iff.mp hmerge
      obtain ⟨-, rfl⟩ := Prod.mk.inj (Option.some.inj heq)
      have htaken := h.entry (value_of_makesEntries hmakes) (toNat_of_entryField? hvalue)
        (Message.read?_eq_some_iff.mp hm) hparts hmerged
      refine ⟨?_, rfl⟩
      simp only [takesField, hfields, Option.any_some, hmakes, Bool.true_and, takesEntry,
        Payload.bytes?, hm]
      exact List.all_eq_true.mpr htaken
  | none =>
    have hentryType : t.entryType? f = none := Option.map_eq_none_iff.mp hfields
    rw [takesField_none (hentry.trans hfields), Bool.or_eq_true, Bool.and_eq_true] at htakes
    rw [takesField_none hfields, Bool.or_eq_true, Bool.and_eq_true]
    cases hrepeated : f.repeated with
    | false =>
      rw [hrepeated] at htakes
      obtain ⟨fuel', hone⟩ := mergeOne_of_mergeValue hrepeated hmerge
      obtain ⟨htaken, hrest⟩ := h.one hread (htakes.resolve_right (by simp)) hone
      exact ⟨.inl htaken, hrest⟩
    | true =>
      cases fuel with
      | zero => simp [mergeValue] at hmerge
      | succ fuel =>
        simp only [mergeValue, hentryType, hrepeated, Bool.not_true, Bool.false_eq_true,
          if_false] at hmerge
        split at hmerge
        case isTrue htag =>
          rw [Bool.and_eq_true, decide_eq_true_eq] at htag
          rcases htakes with hone | ⟨-, hpacked⟩
          · exact absurd htag (tag_ne_bytes_of_isPackable hread hone)
          · obtain ⟨more, hmore⟩ := Option.isSome_iff_exists.mp hpacked
            obtain ⟨-, content, rfl, -⟩ := packed?_eq_some hmore
            simp only [(Wire.readContent?_bytes hread).2, Option.bind_eq_bind,
              Option.bind_some] at hmerge
            obtain ⟨elements, -, heq⟩ := Option.bind_eq_some_iff.mp hmerge
            obtain ⟨-, rfl⟩ := Prod.mk.inj (Option.some.inj heq)
            exact ⟨.inr ⟨rfl, hpacked⟩, rfl⟩
        case isFalse htag =>
          obtain ⟨⟨e, middle⟩, hone, heq⟩ := Option.bind_eq_some_iff.mp hmerge
          obtain ⟨-, rfl⟩ := Prod.mk.inj (Option.some.inj heq)
          rcases htakes with htaken | ⟨-, hpacked⟩
          · obtain ⟨htaken, hrest⟩ := h.one hread htaken hone
            exact ⟨.inl htaken, hrest⟩
          · obtain ⟨more, hmore⟩ := Option.isSome_iff_exists.mp hpacked
            obtain ⟨hpackable, content, rfl, -⟩ := packed?_eq_some hmore
            obtain ⟨rfl, -⟩ := Wire.readContent?_bytes hread
            simp [hpackable] at htag

theorem succ (ht : t.Numbered) (hgrows : t.Grows t') : t.Reflects t' (n + 1) := by
  intro fuel inGroup type r m bytes rest result hparses htakes hmerge
  refine takes_of_mergeFields ht hparses (fun x hx f hf => ?_) hmerge
  have hadmits := List.all_eq_true.mp htakes x hx
  rw [admits, hgrows.field? hf] at hadmits
  intro fuel tag v w bytes rest after hread hvalue
  exact h.field (hgrows.entryFields? hf) hadmits hread hvalue

end Reflects

theorem reflects (ht : t.Numbered) (hgrows : t.Grows t') (n : Nat) : t.Reflects t' n := by
  induction n with
  | zero =>
    intro fuel inGroup type r m bytes rest result _ htakes
    exact nomatch htakes
  | succ n ih => exact ih.succ ht hgrows

/-- What is read of a message that later types take was taken. -/
theorem takes_of_grows (ht : t.Numbered) (hgrows : t.Grows t') (hm : Message.read? bytes = some m)
    (htakes : t'.takes (Wire.Schema.nestingLimit + 1) type m)
    (hread : t.read? type bytes = some r) :
    t.takes (Wire.Schema.nestingLimit + 1) type m = true := by
  obtain ⟨result, hmerge, -⟩ := Option.map_eq_some_iff.mp hread
  exact (reflects ht hgrows _ (Message.read?_eq_some_iff.mp hm) htakes hmerge).1

end Types

end GoBindings

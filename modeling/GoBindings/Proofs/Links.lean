/-
  GoBindings/Proofs/Links.lean
  ============================
  **What the resolved form of a file depends on.**

  In two pools a file is resolved to the same, but for what its options say, if each of its
  references means the same there (`Pool.FileFrom.outline_eq`). A reference that begins with a
  dot means the same wherever it can be resolved, provided that names are defined once
  (`Descriptor.Reference.meansSame_of_isFull`).
-/
import GoBindings.Proofs.Pools

namespace GoBindings

open Descriptor (qualify)

/-! ### References -/

namespace Descriptor

/-- A reference of a file that its resolved form shows: to the type of a field, or to the message
    that an extension extends. -/
inductive Reference where
  | fieldType (scope name : String)
  | extended (scope name : String)

namespace Reference

def scope : Reference → String
  | fieldType scope _ => scope
  | extended scope _ => scope

def name : Reference → String
  | fieldType _ name => name
  | extended _ name => name

/-- What the reference can be to. -/
def wanted : Reference → Entity → Bool
  | fieldType _ _ => isFieldType
  | extended _ _ => (· == .message)

def resolve? (r : Reference) (s : Surroundings) : Option Definition :=
  s.resolve? r.wanted r.scope r.name

/-- Whether the reference is a full name, behind a dot. -/
def isFull (r : Reference) : Bool := (Text.dropStart? "." r.name).isSome

/-- Where a reference can be resolved in both surroundings, it is to the same definition. -/
def MeansSame (s s' : Surroundings) (r : Reference) : Prop :=
  ∀ d d', r.resolve? s = some d → r.resolve? s' = some d' → d = d'

variable {s s' : Surroundings} {r : Reference} {d : Definition}

theorem wanted_package (r : Reference) : r.wanted .package = false := by
  cases r <;> rfl

theorem meansSame_of_eq (h : r.resolve? s = r.resolve? s') : MeansSame s s' r := by
  intro d d' hd hd'
  exact Option.some.inj (hd.symm.trans (h.trans hd'))

/-- A full name is that of the definition that it is resolved to. -/
theorem resolve?_of_isFull (hfull : r.isFull) (h : r.resolve? s = some d) :
    d ∈ s.definitions ∧ some d.name = Text.dropStart? "." r.name ∧ d.entity ≠ .package := by
  obtain ⟨fullName, hname⟩ := Option.isSome_iff_exists.mp hfull
  rw [resolve?, Surroundings.resolve?, hname] at h
  obtain ⟨hlookup, hwanted⟩ := Option.filter_eq_some_iff.mp h
  have hfound : s.definitions.find? (·.name == fullName) = some d := hlookup
  refine ⟨List.mem_of_find?_eq_some hfound, ?_, ?_⟩
  · have hnamed : d.name = fullName := by simpa using List.find?_some hfound
    rw [hname, hnamed]
  · intro hpackage
    rw [hpackage, r.wanted_package] at hwanted
    exact nomatch hwanted

theorem meansSame_of_isFull (hfull : r.isFull)
    (hunique : ∀ d ∈ s.definitions, ∀ d' ∈ s'.definitions, d.name = d'.name →
      d.entity ≠ .package → d = d') : MeansSame s s' r := by
  intro d d' h h'
  obtain ⟨hd, hname, hentity⟩ := resolve?_of_isFull hfull h
  obtain ⟨hd', hname', -⟩ := resolve?_of_isFull hfull h'
  exact hunique d hd d' hd' (Option.some.inj (hname.trans hname'.symm)) hentity

end Reference

/-- The reference to the type of a field, if the field names its type. -/
def Field.references (scope : String) (f : Field) : List Reference :=
  if f.typeName.isEmpty then [] else [.fieldType (qualify scope f.name) f.typeName]

/-- The references of an extension. -/
def Field.extensionReferences (scope : String) (f : Field) : List Reference :=
  .extended (qualify scope f.name) (f.extendee.getD "") :: f.references scope

/-- The references of a file that its resolved form shows. -/
def File.references (f : File) : List Reference :=
  f.messageTypes.flatMap (fun m => m.2.fields.flatMap (·.references m.1))
    ++ f.allExtensions.flatMap fun x => x.2.extensionReferences x.1

/-! ### Fields and extensions -/

section Fields

variable {s s' : Surroundings} {f : Field} {scope : String} {isProto3 : Bool}

open Reference (MeansSame)

theorem Field.kind?_eq {kind kind' : Linked.Kind} (h : f.kind? s (qualify scope f.name) = some kind)
    (h' : f.kind? s' (qualify scope f.name) = some kind')
    (hsame : ∀ r ∈ f.references scope, MeansSame s s' r) : kind = kind' := by
  unfold kind? at h h'
  split at h
  case isTrue hempty =>
    rw [if_pos hempty] at h'
    exact Option.some.inj (h.symm.trans h')
  case isFalse hempty =>
    rw [if_neg hempty] at h'
    obtain ⟨d, hd, rfl⟩ := Option.map_eq_some_iff.mp h
    obtain ⟨d', hd', rfl⟩ := Option.map_eq_some_iff.mp h'
    have hreference : Reference.fieldType (qualify scope f.name) f.typeName ∈
        f.references scope := by
      rw [references, if_neg hempty]
      exact List.mem_cons_self
    rw [hsame _ hreference d d' hd hd']

theorem Field.link?_eq {rivals : List Nat} {g g' : Linked.Field}
    (h : f.link? s isProto3 scope rivals = some g) (h' : f.link? s' isProto3 scope rivals = some g')
    (hsame : ∀ r ∈ f.references scope, MeansSame s s' r) : g = g' := by
  obtain ⟨kind, hkind, h⟩ := Option.bind_eq_some_iff.mp h
  obtain ⟨kind', hkind', h'⟩ := Option.bind_eq_some_iff.mp h'
  obtain rfl := Field.kind?_eq hkind hkind' hsame
  exact Option.some.inj (h.symm.trans h')

theorem Field.linkExtension?_eq {x x' : Linked.Extension}
    (h : f.linkExtension? s isProto3 scope = some x)
    (h' : f.linkExtension? s' isProto3 scope = some x')
    (hsame : ∀ r ∈ f.extensionReferences scope, MeansSame s s' r) : x = x' := by
  obtain ⟨extendee, hextendee, h⟩ := Option.bind_eq_some_iff.mp h
  obtain ⟨g, hg, h⟩ := Option.bind_eq_some_iff.mp h
  obtain ⟨extendee', hextendee', h'⟩ := Option.bind_eq_some_iff.mp h'
  obtain ⟨g', hg', h'⟩ := Option.bind_eq_some_iff.mp h'
  obtain ⟨d, hd, rfl⟩ := Option.map_eq_some_iff.mp hextendee
  obtain ⟨d', hd', rfl⟩ := Option.map_eq_some_iff.mp hextendee'
  obtain rfl := hsame _ List.mem_cons_self d d' hd hd'
  obtain rfl := Field.link?_eq hg hg' fun r hr => hsame r (List.mem_cons_of_mem _ hr)
  exact Option.some.inj (h.symm.trans h')

end Fields

end Descriptor

/-! ### Files -/

/-- A message type without what its options say: that it is the type of the entries of a map. -/
def Linked.MessageType.outline (t : MessageType) : MessageType := { t with isEntry := false }

/-- A file without what its options say. -/
def Linked.File.outline (l : File) : File :=
  { l with messages := l.messages.map (·.outline), services := [] }

namespace Pool

open Descriptor.Reference (MeansSame)

variable {s s' : Surroundings} {kept kept' : OptionBlock → Option (List UInt8)}
  {f : Descriptor.File} {l l' : Linked.File}

theorem MessageFrom.outline_eq {m : String × Descriptor.Message} {t t' : Linked.MessageType}
    (h : MessageFrom s kept f m t) (h' : MessageFrom s' kept' f m t')
    (hsame : ∀ d ∈ m.2.fields, ∀ r ∈ d.references m.1, MeansSame s s' r) :
    t.outline = t'.outline := by
  have hfields : t.fields = t'.fields := eq_of_forall₂ h.fields h'.fields
    fun d hd g g' hg hg' => Descriptor.Field.link?_eq hg hg' (hsame d hd)
  obtain ⟨fields, -, hlinked⟩ := Option.bind_eq_some_iff.mp h.linked
  obtain ⟨fields', -, hlinked'⟩ := Option.bind_eq_some_iff.mp h'.linked
  obtain ⟨hname, -, hextensions, hreserved, -⟩ :=
    (Linked.MessageType.mk.injEq ..).mp (Option.some.inj hlinked)
  obtain ⟨hname', -, hextensions', hreserved', -⟩ :=
    (Linked.MessageType.mk.injEq ..).mp (Option.some.inj hlinked')
  exact (Linked.MessageType.mk.injEq ..).mpr ⟨hname.symm.trans hname', hfields,
    hextensions.symm.trans hextensions', hreserved.symm.trans hreserved', rfl⟩

/-- A file has one outline if its references mean the same. -/
theorem FileFrom.outline_eq (h : FileFrom s kept f l) (h' : FileFrom s' kept' f l')
    (hsame : ∀ r ∈ f.references, MeansSame s s' r) : l.outline = l'.outline := by
  have hmessages : l.messages.map (·.outline) = l'.messages.map (·.outline) := by
    refine map_eq_of_forall₂ h.messages h'.messages fun m hm t t' ht ht' => ?_
    refine ht.outline_eq ht' fun d hd r hr => hsame r ?_
    exact List.mem_append_left _ (List.mem_flatMap.mpr ⟨m, hm, List.mem_flatMap.mpr ⟨d, hd, hr⟩⟩)
  have hextensions : l.extensions = l'.extensions := by
    refine eq_of_forall₂ h.extensions h'.extensions fun x hx e e' he he' => ?_
    refine Descriptor.Field.linkExtension?_eq he he' fun r hr => hsame r ?_
    exact List.mem_append_right _ (List.mem_flatMap.mpr ⟨x, hx, hr⟩)
  exact (Linked.File.mk.injEq ..).mpr ⟨h.name.trans h'.name.symm, h.package.trans h'.package.symm,
    h.passedOn.trans h'.passedOn.symm, h.definitions.trans h'.definitions.symm, hmessages,
    h.enums.trans h'.enums.symm, hextensions, rfl⟩

end Pool

end GoBindings

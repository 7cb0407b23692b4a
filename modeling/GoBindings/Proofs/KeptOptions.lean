/-
  GoBindings/Proofs/KeptOptions.lean
  ==================================
  **Options are found in what is kept of them as they came.**

  When a file is added, its options are interpreted by what the pool knows then, and written
  again. Options without settings that fit what all files declare (`CustomOptions.Plain`) lose
  nothing that way: of them is kept what types that know less read (`Pool.interpret?_eq`), and in
  this the pool of all files finds the name that the options chose as they came
  (`CustomOptions.found_eq_nameIn?`).
-/
import GoBindings.Proofs.GrowingPools
import GoBindings.Proofs.Taking

namespace GoBindings

open Wire (Message)
open Wire.Schema (nestingLimit)

/-! ### Types that know less -/

namespace Types

variable {t t' : Types} {type : String} {options : List UInt8} {m : Message} {r : Record} {k : Nat}

/-- Types that have to read a message before others read what is written of it: they know less, or
    nothing but numbers. -/
def Precedes (t t' : Types) (type : String) (m : Message) : Prop :=
  (t.Grows t' ∧ t'.Oneofs) ∨ t.OneNumbers type m

section

variable (h : t.Precedes t' type m) (ht : t.Numbered) (hm : Message.read? options = some m)
  (htakes : t'.takes (nestingLimit + 1) type m)
include h ht hm htakes

theorem Precedes.takes (hread : t.read? type options = some r) :
    t.takes (nestingLimit + 1) type m = true := by
  rcases h with ⟨hgrows, -⟩ | hone
  · exact takes_of_grows ht hgrows hm htakes hread
  · exact takes_of_oneNumbers ht hone hm hread

/-- What is written of a message is taken and chooses the same name. -/
theorem Precedes.rereads (htaken : t.takes (nestingLimit + 1) type m)
    (hrivals : t'.Unrivaled type k m)
    (hlength : (t.write type (t.gather (nestingLimit + 1) type [] m)).length < 2 ^ 64) :
    Message.Carriable (t.fieldsOf type (t.gather (nestingLimit + 1) type [] m)) ∧
      t'.takes (nestingLimit + 1) type (t.fieldsOf type (t.gather (nestingLimit + 1) type [] m)) =
        true ∧
      t'.choice? k type (t.fieldsOf type (t.gather (nestingLimit + 1) type [] m)) =
        t'.choice? k type m := by
  have hcarriable := (Wire.Message.read?_eq_some_iff.mp hm).carriable
  rcases h with ⟨hgrows, honeofs⟩ | hone
  · obtain ⟨hfields, hagain⟩ :=
      takes_fieldsOf ht hgrows (Nat.succ_ne_zero _) hcarriable htaken htakes hlength
    have hholds := keeps ht hgrows (nestingLimit + 1) (holds_nil (Nat.succ_ne_zero _)) hcarriable
      htaken htakes
    exact ⟨hfields, hagain, choice?_fieldsOf ht hgrows honeofs hholds hlength hrivals⟩
  · obtain ⟨hfields, hagain⟩ := takes_fieldsOf_oneNumbers ht hone hcarriable htaken htakes
    exact ⟨hfields, hagain, choice?_fieldsOf_oneNumbers ht hone htaken htakes⟩

end

end Types

/-! ### The types that options are interpreted by -/

namespace Pool

variable {p : Pool} {f : Descriptor.File} {linked l : Linked.File} {b : OptionBlock}
  {s : Surroundings} {m : Message}

/-- The pool has the messages of a file as the entries of maps, or not, as they are declared. Their
    options may tell otherwise once they are interpreted. -/
def EntriesAsDeclared (p : Pool) (f : Descriptor.File) : Prop :=
  ∀ m ∈ f.messageTypes, (p.message? m.1).map (·.isEntry) = some m.2.mapEntry

instance : Decidable (p.EntriesAsDeclared f) := List.decidableBAll ..

/-- Interpreting the options of the messages of a file changes nothing about what is the entry of a
    map. -/
def KeepsEntries (p : Pool) (f : Descriptor.File) : Prop :=
  ∀ m ∈ f.messageTypes, (p.kept? f (m.2.optionBlock m.1)).map
    (fun o => (Descriptor.fieldsIn o).flag entryNumber) = some m.2.mapEntry

theorem Enters.messages_eq (h : p.Enters f l) (hlink : f.link? (p.surroundingsOf f) = some linked)
    (hentries : p.KeepsEntries f) : linked.messages = l.messages := by
  obtain ⟨messages, extensions, services, hmessages, -, -, rfl⟩ := link?_eq_some hlink
  refine eq_of_forall₂ (mapM_eq_some_iff.mp hmessages) h.fileFrom.messages
    fun m hm t t' ht hfrom => ?_
  have hentry := Option.some.inj (hfrom.isEntry.symm.trans (hentries m hm))
  have hsame := Option.some.inj (ht.symm.trans hfrom.linked)
  rw [hsame, ← hentry]

theorem types_congr {q : Pool} (hmessages : p.messages = q.messages) (henums : p.enums = q.enums)
    (hextensions : p.extensions = q.extensions)
    (hregistrations : p.registrations = q.registrations) :
    p.types = q.types := by
  have hextensionOf : p.extensionOf? = q.extensionOf? := by
    funext type n
    rw [extensionOf?, extensionOf?, hextensions, hregistrations]
  rw [types, types, hmessages, henums, hextensionOf]

/-- The types are those that the pool has when the file was added. -/
theorem Enters.types_opened (h : p.Enters f l) (hlink : f.link? (p.surroundingsOf f) = some linked)
    (hentries : p.KeepsEntries f) : (p.opened f linked).types = (p.opened f l).types := by
  have hmessages := h.messages_eq hlink hentries
  obtain ⟨messages, extensions, services, -, hextensions, -, rfl⟩ := link?_eq_some hlink
  have hsame : extensions = l.extensions :=
    eq_of_forall₂ (mapM_eq_some_iff.mp hextensions) h.fileFrom.extensions
      fun x _ e e' he he' => Option.some.inj (he.symm.trans he')
  refine types_congr ?_ ?_ ?_ rfl
  · simp only [Pool.messages, opened, List.flatMap_append, List.flatMap_singleton, ← hmessages]
  · simp only [enums, opened, List.flatMap_append, List.flatMap_singleton, h.fileFrom.enums]
  · simp only [Pool.extensions, opened, List.flatMap_append, List.flatMap_singleton, hsame]

theorem Enters.typesFor_opened (h : p.Enters f l)
    (hlink : f.link? (p.surroundingsOf f) = some linked) (hentries : p.KeepsEntries f)
    (type : String) :
    (p.opened f linked).typesFor type = (p.opened f l).typesFor type := by
  have htypes := h.types_opened hlink hentries
  have hmessage : (p.opened f linked).message? type = (p.opened f l).message? type :=
    congrArg (fun t : Types => t.message? type) htypes
  rw [typesFor, typesFor, htypes, hmessage]

/-! ### Options without settings -/

theorem settingsIn_eq_nil (hm : Message.read? b.options = some m)
    (hsettled : ∀ x ∈ m, x.1 ≠ Descriptor.settingsNumber) :
    Descriptor.settingsIn b.options = [] := by
  have hnone : Message.payloads m Descriptor.settingsNumber = [] :=
    Types.payloads_eq_nil hsettled
  rw [Descriptor.settingsIn, Descriptor.fieldsIn, hm, Option.getD_some, Message.messages,
    Message.blobs, hnone]
  rfl

theorem withoutSettings_eq {t : Types} {type : String} {r : Record}
    (h : ∀ x ∈ r, x.1 ≠ Descriptor.settingsNumber) : withoutSettings t type r = r := by
  unfold withoutSettings
  split
  · exact List.filter_eq_self.mpr fun x hx => by simpa using h x hx
  · rfl

/-- Of options without settings is kept what is read of them. -/
theorem interpret?_eq (ht : (p.typesFor b.type).Numbered) (hm : Message.read? b.options = some m)
    (hsettled : ∀ x ∈ m, x.1 ≠ Descriptor.settingsNumber)
    (htakes : (p.typesFor b.type).takes (nestingLimit + 1) b.type m) :
    p.interpret? s b = some ((p.typesFor b.type).write b.type
      ((p.typesFor b.type).gather (nestingLimit + 1) b.type [] m)) := by
  unfold interpret?
  split
  case isTrue hempty =>
    rw [List.isEmpty_iff.mp hempty] at hm
    obtain rfl := Option.some.inj hm
    rfl
  case isFalse =>
    have hwithout : withoutSettings (p.typesFor b.type) b.type
        ((p.typesFor b.type).gather (nestingLimit + 1) b.type [] m) =
          (p.typesFor b.type).gather (nestingLimit + 1) b.type [] m := by
      refine withoutSettings_eq fun x hx => ?_
      obtain ⟨y, hy, heq⟩ := Types.fst_of_mem_gather ht hx
      exact heq ▸ hsettled y hy
    simp only [Types.read?_eq ht hm htakes, settingsIn_eq_nil hm hsettled, Option.bind_eq_bind,
      Option.bind_some, List.foldlM_nil, Option.pure_def, hwithout]

/-- What is interpreted can be read. -/
theorem read?_of_interpret? {o : List UInt8} (h : p.interpret? s b = some o)
    (hsome : b.options.isEmpty = false) :
    ∃ r, (p.typesFor b.type).read? b.type b.options = some r := by
  rw [interpret?, hsome, if_neg Bool.false_ne_true] at h
  obtain ⟨r, hr, -⟩ := Option.bind_eq_some_iff.mp h
  exact ⟨r, hr⟩

end Pool

/-- The types of the options that can choose names. -/
def choosingTypes : List String :=
  ["google.protobuf.ServiceOptions", "google.protobuf.MethodOptions"]

namespace StandardOptions

/-- What the language gives options of services and methods, but for settings, are numbers. -/
theorem isOneNumber_of_field? {type : String} {n : Nat} {f : Linked.Field}
    (htype : type ∈ choosingTypes)
    (hf : types.field? type n = some f) (hn : n ≠ Descriptor.settingsNumber) :
    Types.IsOneNumber f := by
  have hnumbers : ∀ m ∈ messages, m.fullName ∈ choosingTypes → ∀ g ∈ m.fields,
      g.number = Descriptor.settingsNumber ∨ g.repeated = false ∧ g.rivals = [] ∧
        g.kind.scalar?.any (fun scalar => decide (scalar.tag = .varint)) = true := by
    decide +kernel
  rcases Option.or_eq_some_iff.mp hf with hdeclared | ⟨-, hextension⟩
  · obtain ⟨m, hm, hg⟩ := Option.bind_eq_some_iff.mp hdeclared
    have hname : m.fullName = type := by simpa using List.find?_some hm
    have hnumber : f.number = (n : Int) := by simpa using List.find?_some hg
    rcases hnumbers m (List.mem_of_find?_eq_some hm) (hname ▸ htype) f
      (List.mem_of_find?_eq_some hg) with hsettings | ⟨hrepeated, hrivals, hvarint⟩
    · rw [hnumber] at hsettings
      exact absurd (Int.ofNat_inj.mp hsettings) hn
    · obtain ⟨scalar, hscalar, htag⟩ := (Option.any_eq_true _ _).mp hvarint
      exact ⟨hrepeated, hrivals, scalar, hscalar, of_decide_eq_true htag⟩
  · exact nomatch hextension

end StandardOptions

/-! ### What is found -/

namespace CustomOptions

open Pool (OptionBlock)

variable {files before after : List Descriptor.File} {f : Descriptor.File} {b : OptionBlock}
  {extension type : String} {m : Message}

/-- The types by which options of a sort are read when a file is added come before those by which
    they are read at the end. -/
theorem precedes (hnames : ((before ++ f :: after).map (·.name)).Nodup)
    (hwhole : (build (before ++ f :: after)).skipped = [])
    (htype : type ∈ choosingTypes)
    (hsettled : ∀ x ∈ m, x.1 ≠ Descriptor.settingsNumber) :
    ((build (before ++ [f])).pool.typesFor type).Precedes
      ((build (before ++ f :: after)).pool.typesFor type) type m := by
  have hsplit : before ++ f :: after = before ++ [f] ++ after := by simp
  rw [hsplit] at hnames hwhole ⊢
  cases hdeclared : (build (before ++ [f])).pool.message? type with
  | some t =>
    have hlater : (build (before ++ [f] ++ after)).pool.message? type = some t :=
      message?_append after hdeclared
    rw [Pool.typesFor, Pool.typesFor, hdeclared, hlater]
    exact .inl ⟨grows_append hnames hwhole, types_oneofs _⟩
  | none =>
    rw [Pool.typesFor, hdeclared]
    exact .inr fun x hx g hg => StandardOptions.isOneNumber_of_field? htype hg (hsettled x hx)

/-- The name that the pool of all files finds through an extension in options of a type. -/
def nameIn? (files : List Descriptor.File) (extension type : String) (options : List UInt8) :
    Option String :=
  ((build files).pool.extension? extension).bind fun x =>
    (build files).pool.chosenName? x.field.number.toNat type options

/-- The name that is found in what is kept of options. -/
def found (files : List Descriptor.File) (extension : String) (f : Descriptor.File)
    (b : OptionBlock) : Option String :=
  ((poolBefore files f).kept? f b).bind (nameIn? files extension b.type)

/-- Fields of options that hold no settings, that the pool of all files takes, and that set no
    other member of the oneof of the field that chooses a name. -/
structure Fits (files : List Descriptor.File) (extension type : String) (m : Message) : Prop where
  settled : ∀ x ∈ m, x.1 ≠ Descriptor.settingsNumber
  takes : ((build files).pool.typesFor type).takes (nestingLimit + 1) type m = true
  unrivaled : ∀ x ∈ (build files).pool.extension? extension,
    ((build files).pool.typesFor type).Unrivaled type x.field.number.toNat m

/-- Options whose fields fit what all files declare. What is kept of them is no longer than a
    number can tell, and the messages of their file are the entries of maps as they are
    declared. -/
structure Plain (files : List Descriptor.File) (extension : String) (f : Descriptor.File)
    (b : OptionBlock) : Prop where
  fits : ∃ m ∈ Message.read? b.options, Fits files extension b.type m
  short : ∀ o ∈ (poolBefore files f).kept? f b, o.length < 2 ^ 64
  entries : (build files).pool.EntriesAsDeclared f

instance : Decidable (Fits files extension type m) :=
  decidable_of_iff ((∀ x ∈ m, x.1 ≠ Descriptor.settingsNumber) ∧
    ((build files).pool.typesFor type).takes (nestingLimit + 1) type m = true ∧
    ∀ x ∈ (build files).pool.extension? extension, ∀ y ∈ m,
      ∀ g ∈ ((build files).pool.typesFor type).field? type y.1, x.field.number.toNat ∉ g.rivals)
    ⟨fun h => ⟨h.1, h.2.1, h.2.2⟩, fun h => ⟨h.settled, h.takes, h.unrivaled⟩⟩

instance : Decidable (Plain files extension f b) :=
  decidable_of_iff ((∃ m ∈ Message.read? b.options, Fits files extension b.type m) ∧
    (∀ o ∈ (poolBefore files f).kept? f b, o.length < 2 ^ 64) ∧
    (build files).pool.EntriesAsDeclared f)
    ⟨fun h => ⟨h.1, h.2.1, h.2.2⟩, fun h => ⟨h.fits, h.short, h.entries⟩⟩

theorem nameIn?_of_fits (hm : Message.read? b.options = some m)
    (h : Fits files extension b.type m) :
    nameIn? files extension b.type b.options =
      ((build files).pool.extension? extension).bind fun x =>
        ((build files).pool.typesFor b.type).choice? x.field.number.toNat b.type m := by
  unfold nameIn?
  cases hx : (build files).pool.extension? extension with
  | none => rfl
  | some x =>
    exact Pool.chosenName?_eq (typesFor_numbered files b.type) hm h.takes (h.unrivaled x hx)

section Whole

variable (hnames : ((before ++ f :: after).map (·.name)).Nodup)
  (hwhole : (build (before ++ f :: after)).skipped = [])
include hnames hwhole

/-- What the pool has at the end was told when the file was added. -/
theorem keepsEntries {l : Linked.File} (hl : (build before).pool.Enters f l)
    (hentries : (build (before ++ f :: after)).pool.EntriesAsDeclared f) :
    (build before).pool.KeepsEntries f := by
  intro m hm
  obtain ⟨t, ht, hfrom⟩ := exists_of_mem_right hl.fileFrom.messages.flip hm
  have hfound : (build (before ++ f :: after)).pool.message? m.1 = some t :=
    (find?_key_eq_some_iff (nodup_messages hnames hwhole)).mpr
      ⟨List.mem_flatMap.mpr ⟨l, mem_files_of_enters hl, ht⟩, hfrom.fullName⟩
  have hentry := hentries m hm
  rw [hfound, Option.map_some] at hentry
  rw [hfrom.isEntry, hentry]

/-- Of plain options is kept what is written of them by the types of the pool that their file
    entered, which took them. -/
theorem kept_eq_write (hentries : (build (before ++ f :: after)).pool.EntriesAsDeclared f)
    (htype : b.type ∈ choosingTypes) (hm : Message.read? b.options = some m)
    (hfits : Fits (before ++ f :: after) extension b.type m) {o : List UInt8}
    (ho : (build before).pool.kept? f b = some o) :
    ((build (before ++ [f])).pool.typesFor b.type).takes (nestingLimit + 1) b.type m = true ∧
      o = ((build (before ++ [f])).pool.typesFor b.type).write b.type
        (((build (before ++ [f])).pool.typesFor b.type).gather (nestingLimit + 1) b.type [] m) := by
  have hsplit : before ++ f :: after = before ++ [f] ++ after := by simp
  obtain ⟨-, l, hl, hpool⟩ := enters_last (nodup_names_of_append (hsplit ▸ hnames))
    (skipped_eq_nil_of_append (hsplit ▸ hwhole))
  obtain ⟨linked, hlink, hinterpret⟩ := Option.bind_eq_some_iff.mp ho
  have htypes := hl.typesFor_opened hlink (keepsEntries hnames hwhole hl hentries) b.type
  rw [← hpool] at htypes
  have ht := typesFor_numbered (before ++ [f]) b.type
  have htaken : ((build (before ++ [f])).pool.typesFor b.type).takes (nestingLimit + 1) b.type m =
      true := by
    cases hempty : b.options.isEmpty with
    | true =>
      rw [List.isEmpty_iff.mp hempty] at hm
      obtain rfl := Option.some.inj hm
      rfl
    | false =>
      obtain ⟨r, hread⟩ := Pool.read?_of_interpret? hinterpret hempty
      rw [htypes] at hread
      exact (precedes hnames hwhole htype hfits.settled).takes ht hm hfits.takes hread
  rw [Pool.interpret?_eq (htypes ▸ ht) hm hfits.settled (htypes ▸ htaken), htypes] at hinterpret
  exact ⟨htaken, (Option.some.inj hinterpret).symm⟩

/-- In what is written of plain options the same name is found as in the options. -/
theorem nameIn?_write (htype : b.type ∈ choosingTypes) (hm : Message.read? b.options = some m)
    (hfits : Fits (before ++ f :: after) extension b.type m)
    (htaken : ((build (before ++ [f])).pool.typesFor b.type).takes (nestingLimit + 1) b.type m)
    (hshort : (((build (before ++ [f])).pool.typesFor b.type).write b.type
      (((build (before ++ [f])).pool.typesFor b.type).gather
        (nestingLimit + 1) b.type [] m)).length < 2 ^ 64) :
    nameIn? (before ++ f :: after) extension b.type
        (((build (before ++ [f])).pool.typesFor b.type).write b.type
          (((build (before ++ [f])).pool.typesFor b.type).gather (nestingLimit + 1) b.type [] m)) =
      nameIn? (before ++ f :: after) extension b.type b.options := by
  have ht := typesFor_numbered (before ++ [f]) b.type
  rw [nameIn?_of_fits hm hfits, nameIn?]
  cases hx : (build (before ++ f :: after)).pool.extension? extension with
  | none => rfl
  | some x =>
    have hrivals := hfits.unrivaled x hx
    obtain ⟨hcarriable, hagain, hsame⟩ := (precedes hnames hwhole htype hfits.settled).rereads ht
      hm hfits.takes htaken hrivals hshort
    rw [Option.bind_some, Option.bind_some, ← hsame]
    refine Pool.chosenName?_eq (typesFor_numbered _ b.type) (Types.read?_write hcarriable) hagain
      fun y hy g hg => ?_
    obtain ⟨z, hz, heq⟩ := Types.fst_of_mem_fieldsOf_gather ht hy
    exact hrivals z hz g (heq ▸ hg)

end Whole

/-- In what is kept of plain options the same name is found as in the options as they came. -/
theorem found_eq_nameIn? (hnames : (files.map (·.name)).Nodup) (hwhole : (build files).skipped = [])
    (hf : f ∈ files) (htype : b.type ∈ choosingTypes)
    (hkept : ((poolBefore files f).kept? f b).isSome) (hplain : Plain files extension f b) :
    found files extension f b = nameIn? files extension b.type b.options := by
  obtain ⟨m, hm, hfits⟩ := hplain.fits
  obtain ⟨o, ho⟩ := Option.isSome_iff_exists.mp hkept
  have hshort := hplain.short o ho
  have hentries := hplain.entries
  rw [found, ho, Option.bind_some]
  obtain ⟨before, after, rfl⟩ := List.append_of_mem hf
  rw [poolBefore_eq hnames] at ho
  obtain ⟨htaken, rfl⟩ := kept_eq_write hnames hwhole hentries htype hm hfits ho
  exact nameIn?_write hnames hwhole htype hm hfits htaken hshort

end CustomOptions

end GoBindings

/-
  GoBindings/Proofs/Pools.lean
  ============================
  **What is in a pool, and where it came from.**

  Files are added one after the other, and each one either enters the pool, has a name that
  is known there, or is left out (`Pool.add_cases`). What entered stays. So a file of the
  pool goes back to one source file and to the pool that this one found
  (`CustomOptions.entered_of_mem_files`), and of files with different names each enters or is
  noted as left out (`CustomOptions.enters_or_skipped`).

  A service of the pool has the name of a declared service and, method by method, the declared
  options as they were interpreted when its file was added (`Pool.Enters.services`).
-/
import GoBindings.Proofs.Drafts
import GoBindings.Proofs.Keys
import Mathlib.Data.List.Induction

namespace GoBindings

open Descriptor (qualify)

/-! ### Options that a pool keeps -/

namespace Descriptor

def Message.optionBlock (fullName : String) (m : Message) : Pool.OptionBlock :=
  ⟨"google.protobuf.MessageOptions", fullName, m.options⟩

def Service.optionBlock (f : File) (d : Service) : Pool.OptionBlock :=
  ⟨"google.protobuf.ServiceOptions", d.fullName f, d.options⟩

def Method.optionBlock (service : String) (m : Method) : Pool.OptionBlock :=
  ⟨"google.protobuf.MethodOptions", qualify service m.name, m.options⟩

end Descriptor

namespace Pool

variable {p : Pool} {f : Descriptor.File} {linked l : Linked.File}

/-! ### One file -/

/-- The pool with a file whose references are resolved, before its options are interpreted. -/
def opened (p : Pool) (f : Descriptor.File) (linked : Linked.File) : Pool :=
  ⟨p.files ++ [linked], p.registering f, p.leftovers⟩

/-- A set of options of a file as the pool keeps it when the file is added: interpreted by what
    the pool knows then. -/
def kept? (p : Pool) (f : Descriptor.File) (b : OptionBlock) : Option (List UInt8) :=
  (f.link? (p.surroundingsOf f)).bind fun linked =>
    (p.opened f linked).interpret? (p.surroundingsOf f) b

theorem accept_eq_ok_iff :
    p.accept f = .ok l ↔ ∃ linked, f.link? (p.surroundingsOf f) = some linked ∧
      (p.opened f linked).check f linked = .ok () ∧
      (p.opened f linked).interpretFile? (p.surroundingsOf f) f linked = some l := by
  unfold accept opened
  cases hlink : f.link? (p.surroundingsOf f) with
  | none => simp
  | some linked =>
    dsimp only
    cases hcheck : check ⟨p.files ++ [linked], p.registering f, p.leftovers⟩ f linked with
    | error r => simp [hcheck, bind, Except.bind]
    | ok u =>
      cases hinterpret : interpretFile? ⟨p.files ++ [linked], p.registering f, p.leftovers⟩
        (p.surroundingsOf f) f linked <;> simp [hcheck, hinterpret, bind, Except.bind]

/-- The file enters the pool, in a linked form. -/
structure Enters (p : Pool) (f : Descriptor.File) (l : Linked.File) : Prop where
  withinLimit : f.optionsWithinLimit = true
  fresh : p.file? f.name = none
  namesFit : p.namesFit f = true
  accepted : p.accept f = .ok l

theorem Enters.add (h : p.Enters f l) : p.add f = (p.opened f l, none) := by
  simp only [Pool.add, h.withinLimit, h.fresh, h.namesFit, h.accepted, opened]
  rfl

theorem add_cases (p : Pool) (f : Descriptor.File) :
    (∃ l, p.Enters f l) ∨
      ((p.file? f.name).isSome ∧ p.add f = (p, none)) ∨
      ∃ r, (p.add f).2 = some r ∧ (p.add f).1.files = p.files := by
  by_cases hlimit : f.optionsWithinLimit = true
  case neg => exact .inr (.inr ⟨.unreadableOptions, by simp [Pool.add, hlimit]⟩)
  cases hknown : p.file? f.name with
  | some known => exact .inr (.inl ⟨rfl, by simp [Pool.add, hlimit, hknown]⟩)
  | none =>
    by_cases hnames : p.namesFit f = true
    case neg => exact .inr (.inr ⟨.badName, by simp [Pool.add, hlimit, hknown, hnames, leavingOut]⟩)
    cases haccept : p.accept f with
    | ok l => exact .inl ⟨l, hlimit, hknown, hnames, haccept⟩
    | error r =>
      exact .inr (.inr ⟨r, by simp [Pool.add, hlimit, hknown, hnames, haccept, leavingOut]⟩)

/-! ### What is kept of a file -/

theorem link?_eq_some {s : Surroundings} (h : f.link? s = some linked) :
    ∃ messages extensions services,
      f.messageTypes.mapM (fun (fullName, m) => m.link? s f.isProto3 fullName) = some messages ∧
      f.allExtensions.mapM (fun (scope, x) => x.linkExtension? s f.isProto3 scope) =
        some extensions ∧
      f.services.mapM (fun d => d.link? s (d.fullName f)) = some services ∧
      linked = ⟨f.name, f.package, Descriptor.passedOn f.dependencies f.publicDependencies,
        f.definitions, messages, f.allEnums.map (fun (scope, e) => e.linked scope), extensions,
        services⟩ := by
  obtain ⟨messages, hmessages, h⟩ := Option.bind_eq_some_iff.mp h
  obtain ⟨extensions, hextensions, h⟩ := Option.bind_eq_some_iff.mp h
  obtain ⟨services, hservices, h⟩ := Option.bind_eq_some_iff.mp h
  exact ⟨messages, extensions, services, hmessages, hextensions, hservices,
    (Option.some.inj h).symm⟩

theorem interpretFile?_eq_some {s : Surroundings} (h : p.interpretFile? s f linked = some l) :
    ∃ messages services,
      (f.messageTypes.zip linked.messages).mapM
        (fun ((fullName, m), t) => p.interpretMessage? s fullName m t) = some messages ∧
      linked.services.mapM (p.interpretService? s) = some services ∧
      l = { linked with messages := messages, services := services } := by
  unfold interpretFile? at h
  split at h
  case isTrue =>
    obtain ⟨messages, hmessages, h⟩ := Option.bind_eq_some_iff.mp h
    obtain ⟨services, hservices, h⟩ := Option.bind_eq_some_iff.mp h
    exact ⟨messages, services, hmessages, hservices, (Option.some.inj h).symm⟩
  case isFalse => exact nomatch h

variable {s : Surroundings} {kept : OptionBlock → Option (List UInt8)}

/-- A message type of the pool is that of a message, resolved, and the type of the entries of a
    map if the options that `kept` gives say so. -/
structure MessageFrom (s : Surroundings) (kept : OptionBlock → Option (List UInt8))
    (f : Descriptor.File) (m : String × Descriptor.Message) (t : Linked.MessageType) : Prop where
  linked : m.2.link? s f.isProto3 m.1 = some { t with isEntry := m.2.mapEntry }
  wellFormed : m.2.isWellFormed t = true
  isEntry : (kept (m.2.optionBlock m.1)).map (fun o => (Descriptor.fieldsIn o).flag entryNumber) =
    some t.isEntry

/-- A method of the pool is the declared one, with options that `kept` gives. -/
structure MethodFrom (kept : OptionBlock → Option (List UInt8)) (service : String)
    (m : Descriptor.Method) (w : Linked.Method) : Prop where
  name : w.name = m.name
  options : kept (m.optionBlock service) = some w.options

/-- A service of the pool is the declared one, with options that `kept` gives. -/
structure ServiceFrom (kept : OptionBlock → Option (List UInt8)) (f : Descriptor.File)
    (d : Descriptor.Service) (v : Linked.Service) : Prop where
  fullName : v.fullName = d.fullName f
  options : kept (d.optionBlock f) = some v.options
  methods : List.Forall₂ (MethodFrom kept (d.fullName f)) d.methods v.methods

/-- A file of the pool is a source file with its references resolved and with options that
    `kept` gives. -/
structure FileFrom (s : Surroundings) (kept : OptionBlock → Option (List UInt8))
    (f : Descriptor.File) (l : Linked.File) : Prop where
  name : l.name = f.name
  package : l.package = f.package
  passedOn : l.passedOn = Descriptor.passedOn f.dependencies f.publicDependencies
  definitions : l.definitions = f.definitions
  messages : List.Forall₂ (MessageFrom s kept f) f.messageTypes l.messages
  enums : l.enums = f.allEnums.map fun (scope, e) => e.linked scope
  extensions : List.Forall₂ (fun x e => x.2.linkExtension? s f.isProto3 x.1 = some e)
    f.allExtensions l.extensions
  services : List.Forall₂ (ServiceFrom kept f) f.services l.services

theorem messageFrom_of_link? {q : Pool} {s' : Surroundings} {m : String × Descriptor.Message}
    {linked t : Linked.MessageType} (hlink : m.2.link? s f.isProto3 m.1 = some linked)
    (hwellFormed : m.2.isWellFormed linked = true)
    (hinterpret : q.interpretMessage? s' m.1 m.2 linked = some t) :
    MessageFrom s (q.interpret? s') f m t := by
  obtain ⟨options, hoptions, rfl⟩ := Option.map_eq_some_iff.mp hinterpret
  refine ⟨?_, hwellFormed, ?_⟩
  · obtain ⟨fields, -, h⟩ := Option.bind_eq_some_iff.mp hlink
    obtain rfl := Option.some.inj h
    exact hlink
  · rw [Descriptor.Message.optionBlock, hoptions]
    rfl

theorem methodFrom_of_link? {q : Pool} {s' : Surroundings} {service : String}
    {m : Descriptor.Method} {linked w : Linked.Method} (hlink : m.link? s service = some linked)
    (hinterpret : q.interpretMethod? s' service linked = some w) :
    MethodFrom (q.interpret? s') service m w := by
  obtain ⟨-, -, hlink⟩ := Option.bind_eq_some_iff.mp hlink
  obtain ⟨-, -, hlink⟩ := Option.bind_eq_some_iff.mp hlink
  obtain rfl := Option.some.inj hlink
  obtain ⟨options, hoptions, rfl⟩ := Option.map_eq_some_iff.mp hinterpret
  exact ⟨rfl, hoptions⟩

theorem serviceFrom_of_link? {q : Pool} {s' : Surroundings} {d : Descriptor.Service}
    {linked v : Linked.Service} (hlink : d.link? s (d.fullName f) = some linked)
    (hinterpret : q.interpretService? s' linked = some v) :
    ServiceFrom (q.interpret? s') f d v := by
  obtain ⟨methods, hmethods, hlink⟩ := Option.bind_eq_some_iff.mp hlink
  obtain rfl := Option.some.inj hlink
  obtain ⟨options, hoptions, hinterpret⟩ := Option.bind_eq_some_iff.mp hinterpret
  obtain ⟨interpreted, hinterpreted, hinterpret⟩ := Option.bind_eq_some_iff.mp hinterpret
  obtain rfl := Option.some.inj hinterpret
  rw [mapM_eq_some_iff] at hmethods hinterpreted
  exact ⟨rfl, hoptions,
    forall₂_comp hmethods hinterpreted fun _ _ _ => methodFrom_of_link?⟩

theorem wellFormed_of_check {q : Pool} (h : q.check f linked = .ok ()) :
    ∀ x ∈ f.messageTypes.zip linked.messages, x.1.2.isWellFormed x.2 = true := by
  have hfields : q.fieldsFit f linked = true := by
    by_contra hne
    rw [Bool.not_eq_true] at hne
    cases himports : q.importsFit f <;> simp [check, himports, hne] at h
  rw [fieldsFit, Bool.and_eq_true] at hfields
  exact fun x hx => List.all_eq_true.mp hfields.1 x hx

/-- Everything that there is to know of a file that entered the pool. -/
theorem Enters.fileFrom (h : p.Enters f l) : FileFrom (p.surroundingsOf f) (p.kept? f) f l := by
  obtain ⟨linked, hlink, hcheck, hinterpret⟩ := accept_eq_ok_iff.mp h.accepted
  have hkept : p.kept? f = (p.opened f linked).interpret? (p.surroundingsOf f) := by
    funext b
    rw [kept?, hlink]
    rfl
  -- the check speaks of the messages before their options are interpreted
  have hwellFormed := wellFormed_of_check hcheck
  obtain ⟨messages, extensions, services, hmessages, hextensions, hservices, rfl⟩ :=
    link?_eq_some hlink
  obtain ⟨types, interpreted, htypes, hinterpreted, rfl⟩ := interpretFile?_eq_some hinterpret
  rw [mapM_eq_some_iff] at hmessages hextensions hservices htypes hinterpreted
  rw [hkept]
  refine ⟨rfl, rfl, rfl, rfl, ?_, rfl, hextensions, ?_⟩
  · have hlinked : List.Forall₂ (fun m linked =>
        m.2.link? (p.surroundingsOf f) f.isProto3 m.1 = some linked ∧
          m.2.isWellFormed linked = true) f.messageTypes messages :=
      List.forall₂_iff_zip.mpr ⟨hmessages.length_eq, fun hzip =>
        ⟨List.forall₂_zip hmessages hzip, hwellFormed _ hzip⟩⟩
    exact forall₂_of_zip hlinked htypes fun m linked t h ht => messageFrom_of_link? h.1 h.2 ht
  · exact forall₂_comp hservices hinterpreted fun _ _ _ => serviceFrom_of_link?

/-! ### The numbers of fields -/

theorem nodup_of_allDistinct {α : Type} [BEq α] [LawfulBEq α] {xs : List α}
    (h : allDistinct xs = true) : xs.Nodup := by
  induction xs with
  | nil => exact List.nodup_nil
  | cons x rest ih =>
    rw [allDistinct, Bool.and_eq_true, Bool.not_eq_true', List.contains_eq_mem,
      decide_eq_false_iff_not] at h
    exact List.nodup_cons.mpr ⟨h.1, ih h.2⟩

namespace MessageFrom

variable {m : String × Descriptor.Message} {t : Linked.MessageType} (h : MessageFrom s kept f m t)
include h

theorem fullName : t.fullName = m.1 := by
  obtain ⟨fields, -, heq⟩ := Option.bind_eq_some_iff.mp h.linked
  exact (congrArg Linked.MessageType.fullName (Option.some.inj heq)).symm

theorem fields : List.Forall₂
    (fun d g => d.link? s f.isProto3 m.1 (m.2.rivals d) = some g) m.2.fields t.fields := by
  obtain ⟨fields, hfields, heq⟩ := Option.bind_eq_some_iff.mp h.linked
  obtain rfl : fields = t.fields := congrArg Linked.MessageType.fields (Option.some.inj heq)
  exact mapM_eq_some_iff.mp hfields

theorem numbers : t.fields.map (·.number) = m.2.fields.map (·.number) := by
  rw [← List.forall₂_eq_eq_eq, List.forall₂_map_left_iff, List.forall₂_map_right_iff]
  refine h.fields.flip.imp fun g d hlink => ?_
  obtain ⟨kind, -, heq⟩ := Option.bind_eq_some_iff.mp hlink
  rw [← Option.some.inj heq]

theorem distinct : (t.fields.map (·.number)).Nodup := by
  have hwellFormed := h.wellFormed
  rw [Descriptor.Message.isWellFormed, Descriptor.Message.setsFieldsApart, Bool.and_eq_true,
    Bool.and_eq_true] at hwellFormed
  rw [h.numbers]
  exact nodup_of_allDistinct hwellFormed.1.1

theorem natural : ∀ g ∈ t.fields, 0 ≤ g.number := by
  intro g hg
  have hmem : g.number ∈ m.2.fields.map (·.number) := h.numbers ▸ List.mem_map_of_mem hg
  obtain ⟨d, hd, heq⟩ := List.mem_map.mp hmem
  have hwellFormed := h.wellFormed
  rw [Descriptor.Message.isWellFormed, Bool.and_eq_true, List.all_eq_true] at hwellFormed
  have hroom := hwellFormed.2 d hd
  simp only [Linked.MessageType.hasRoomFor, isFieldNumber, Bool.and_eq_true,
    decide_eq_true_eq] at hroom
  omega

end MessageFrom

theorem FileFrom.serviceNames (h : FileFrom s kept f l) :
    l.services.map (·.fullName) = f.serviceNames := by
  rw [Descriptor.File.serviceNames, ← List.forall₂_eq_eq_eq, List.forall₂_map_left_iff,
    List.forall₂_map_right_iff]
  exact h.services.flip.imp fun _ _ => ServiceFrom.fullName

end Pool

/-! ### One file after the other -/

namespace CustomOptions

variable {files before after : List Descriptor.File} {f : Descriptor.File} {l : Linked.File}

theorem build_concat (files : List Descriptor.File) (f : Descriptor.File) :
    build (files ++ [f]) = (build files).add f :=
  List.foldl_concat add CustomOptions.none f files

theorem pool_add (o : CustomOptions) (f : Descriptor.File) : (o.add f).pool = (o.pool.add f).1 := by
  unfold add
  split
  · next hadd => rw [hadd]
  · next hadd => rw [hadd]

theorem skipped_add (o : CustomOptions) (f : Descriptor.File) :
    (o.add f).skipped = o.skipped ++ ((o.pool.add f).2.map fun r => (f.name, r)).toList := by
  unfold add
  split
  · next hadd => rw [hadd]; exact (List.append_nil _).symm
  · next hadd => rw [hadd]; rfl

theorem files_add (o : CustomOptions) (f : Descriptor.File) :
    (∃ l, o.pool.Enters f l ∧ (o.add f).pool.files = o.pool.files ++ [l]) ∨
      (∀ l, ¬ o.pool.Enters f l) ∧ (o.add f).pool.files = o.pool.files := by
  rw [pool_add]
  rcases Pool.add_cases o.pool f with ⟨l, hl⟩ | ⟨hknown, hadd⟩ | ⟨r, hr, hfiles⟩
  · exact .inl ⟨l, hl, by rw [hl.add]; rfl⟩
  · refine .inr ⟨fun l hl => ?_, by rw [hadd]⟩
    rw [hl.fresh] at hknown
    exact nomatch hknown
  · refine .inr ⟨fun l hl => ?_, hfiles⟩
    rw [hl.add] at hr
    exact nomatch hr

/-- What is in the pool stays there, in front of what comes later. -/
theorem files_prefix (files rest : List Descriptor.File) :
    (build files).pool.files <+: (build (files ++ rest)).pool.files := by
  induction rest using List.reverseRecOn with
  | nil => simp
  | append_singleton rest f ih =>
    rw [← List.append_assoc, build_concat]
    rcases files_add (build (files ++ rest)) f with ⟨l, -, hfiles⟩ | ⟨-, hfiles⟩
    · rw [hfiles]
      exact ih.trans (List.prefix_append _ _)
    · rwa [hfiles]

/-- A file of the pool goes back to a source file, which entered the pool that was there. -/
theorem entered_of_mem_files (h : l ∈ (build files).pool.files) :
    ∃ before f after, files = before ++ f :: after ∧ (build before).pool.Enters f l := by
  induction files using List.reverseRecOn with
  | nil => exact absurd h List.not_mem_nil
  | append_singleton files f ih =>
    have hearlier : l ∈ (build files).pool.files → ∃ before g after,
        files ++ [f] = before ++ g :: after ∧ (build before).pool.Enters g l := by
      intro hl
      obtain ⟨before, g, after, rfl, hg⟩ := ih hl
      exact ⟨before, g, after ++ [f], by simp, hg⟩
    rw [build_concat] at h
    rcases files_add (build files) f with ⟨entered, hentered, hfiles⟩ | ⟨-, hfiles⟩
    · rw [hfiles, List.mem_append, List.mem_singleton] at h
      rcases h with hl | rfl
      · exact hearlier hl
      · exact ⟨files, f, [], rfl, hentered⟩
    · rw [hfiles] at h
      exact hearlier h

theorem mem_files_of_enters (h : (build before).pool.Enters f l) :
    l ∈ (build (before ++ f :: after)).pool.files := by
  have hprefix := files_prefix (before ++ [f]) after
  rw [List.append_assoc, List.singleton_append] at hprefix
  refine hprefix.subset ?_
  rw [build_concat, pool_add, h.add]
  exact List.mem_append_right _ List.mem_cons_self

theorem file?_eq_none_of_not_mem {name : String} (h : name ∉ files.map (·.name)) :
    (build files).pool.file? name = .none := by
  refine List.find?_eq_none.mpr fun l hl hname => h ?_
  obtain ⟨before, g, after, rfl, hg⟩ := entered_of_mem_files hl
  rw [beq_iff_eq, hg.fileFrom.name] at hname
  exact List.mem_map.mpr ⟨g, by simp, hname⟩

theorem skipped?_add_of_ne (o : CustomOptions) {name : String} (h : f.name ≠ name) :
    (o.add f).skipped? name = o.skipped? name := by
  unfold skipped?
  rw [skipped_add, List.lookup_append]
  cases (o.pool.add f).2 with
  | none => simp
  | some r =>
    have hlookup : List.lookup name [(f.name, r)] = .none := by
      simp [List.lookup_eq_none_iff, h.symm]
    simp [hlookup]

theorem skipped?_build_append (h : ∀ g ∈ after, g.name ≠ f.name) :
    (build (files ++ after)).skipped? f.name = (build files).skipped? f.name := by
  induction after using List.reverseRecOn with
  | nil => rw [List.append_nil]
  | append_singleton after g ih =>
    rw [← List.append_assoc, build_concat, skipped?_add_of_ne _ (h g (by simp)),
      ih fun g hg => h g (by simp [hg])]

/-- Whether a file was left out was decided when it was added. -/
theorem skipped?_eq (hnames : ((before ++ f :: after).map (·.name)).Nodup) :
    (build (before ++ f :: after)).skipped? f.name = ((build before).pool.add f).2 := by
  rw [List.map_append, List.map_cons] at hnames
  have hafter : ∀ g ∈ after, g.name ≠ f.name := fun g hg heq =>
    (List.nodup_cons.mp hnames.of_append_right).1 (heq ▸ List.mem_map_of_mem hg)
  have hbefore : ∀ g ∈ before, g.name ≠ f.name := fun g hg heq =>
    List.disjoint_of_nodup_append hnames (List.mem_map_of_mem hg) (heq ▸ List.mem_cons_self)
  have hnone : (build before).skipped? f.name = .none :=
    @skipped?_build_append [] before f hbefore
  have hsplit : before ++ f :: after = before ++ [f] ++ after := by simp
  rw [hsplit, skipped?_build_append hafter, build_concat, skipped?, skipped_add,
    List.lookup_append, ← skipped?, hnone]
  cases ((build before).pool.add f).2 <;> simp

/-- Of files with different names each one enters the pool or is noted as left out. -/
theorem enters_or_skipped (hnames : ((before ++ f :: after).map (·.name)).Nodup) :
    (∃ l, (build before).pool.Enters f l ∧
        (build (before ++ f :: after)).skipped? f.name = .none) ∨
      ∃ r, (build (before ++ f :: after)).skipped? f.name = some r := by
  rw [skipped?_eq hnames]
  rcases Pool.add_cases (build before).pool f with ⟨l, hl⟩ | ⟨hknown, -⟩ | ⟨r, hr, -⟩
  · exact .inl ⟨l, hl, by rw [hl.add]⟩
  · rw [List.map_append, List.map_cons] at hnames
    have hfresh : f.name ∉ before.map (·.name) := fun hmem =>
      List.disjoint_of_nodup_append hnames hmem List.mem_cons_self
    rw [file?_eq_none_of_not_mem hfresh] at hknown
    exact nomatch hknown
  · exact .inr ⟨r, hr⟩

/-- The pool that a file finds when it is added: that of the files before it. -/
def poolBefore (files : List Descriptor.File) (f : Descriptor.File) : Pool :=
  (build (files.takeWhile (·.name != f.name))).pool

theorem poolBefore_eq (hnames : ((before ++ f :: after).map (·.name)).Nodup) :
    poolBefore (before ++ f :: after) f = (build before).pool := by
  rw [List.map_append, List.map_cons] at hnames
  have hbefore : ∀ g ∈ before, (g.name != f.name) = true := fun g hg => bne_iff_ne.mpr fun heq =>
    List.disjoint_of_nodup_append hnames (List.mem_map_of_mem hg) (heq ▸ List.mem_cons_self)
  rw [poolBefore, List.takeWhile_append_of_pos hbefore, List.takeWhile_cons_of_neg (by simp),
    List.append_nil]

theorem serviceNames_sublist (files : List Descriptor.File) :
    (((build files).pool.files.flatMap (·.services)).map (·.fullName)).Sublist
      (files.flatMap (·.serviceNames)) := by
  induction files using List.reverseRecOn with
  | nil => exact List.Sublist.slnil
  | append_singleton files f ih =>
    rw [build_concat, List.flatMap_append, List.flatMap_singleton]
    rcases files_add (build files) f with ⟨l, hl, hfiles⟩ | ⟨-, hfiles⟩
    · rw [hfiles, List.flatMap_append, List.flatMap_singleton, List.map_append,
        hl.fileFrom.serviceNames]
      exact ih.append (List.Sublist.refl _)
    · rw [hfiles]
      exact ih.trans (List.sublist_append_left _ _)

end CustomOptions

end GoBindings

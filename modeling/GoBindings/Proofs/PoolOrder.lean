/-
  GoBindings/Proofs/PoolOrder.lean
  ================================
  **What a pool finds does not depend on the order in which its files came.**

  Two orders of the same files are compared, neither of which leaves out a file. If the references
  of a file mean the same in both, as full names do, both pools have the file, but for what its
  options say (`CustomOptions.outlines_perm`). As no two declarations of a kind have one name, and
  no two extensions of a message one number, both pools find the same (`CustomOptions.pool_alike`).

  What is kept of options is written by what was known when their file came. In plain options the
  same name is found all the same, namely the one that they chose as they came
  (`CustomOptions.ChooseSame.found_eq`). So services and operations have the same names in both
  orders if that is asked of the other options alone (`CustomOptions.sameNames`).
-/
import GoBindings.Proofs.KeptOptions
import GoBindings.Proofs.Links
import GoBindings.Proofs.Lookups

namespace GoBindings

open Descriptor.Reference (MeansSame)
open Pool (OptionBlock)

/-- The message and the number that an extension is for. -/
def Linked.Extension.place (x : Linked.Extension) : String × Int := (x.extendee, x.field.number)

namespace CustomOptions

variable {files order before after : List Descriptor.File} {f : Descriptor.File}

/-- The same files in two orders, neither of which leaves out a file. -/
structure Reorders (files order : List Descriptor.File) : Prop where
  perm : files.Perm order
  names : (files.map (·.name)).Nodup
  whole : (build files).skipped = []
  orderWhole : (build order).skipped = []

theorem Reorders.orderNames (h : Reorders files order) : (order.map (·.name)).Nodup :=
  (h.perm.map _).nodup h.names

/-- In both orders the same name is found in what is kept of options, or the options are plain in
    both. -/
def ChooseSame (files order : List Descriptor.File) (extension : String) (f : Descriptor.File)
    (b : OptionBlock) : Prop :=
  found files extension f b = found order extension f b ∨
    (Plain files extension f b ∧ Plain order extension f b)

/-- A file that is the same in two orders of the files: each reference is a full name or is
    resolved to the same, and the options of services and methods choose the same names. -/
structure Steady (files order : List Descriptor.File) (f : Descriptor.File) : Prop where
  references : ∀ r ∈ f.references, r.isFull ∨
    r.resolve? ((poolBefore files f).surroundingsOf f) =
      r.resolve? ((poolBefore order f).surroundingsOf f)
  services : ∀ d ∈ f.services, ChooseSame files order serviceExtension f (d.optionBlock f)
  methods : ∀ d ∈ f.services, ∀ m ∈ d.methods,
    ChooseSame files order operationExtension f (m.optionBlock (d.fullName f))

instance {extension : String} {b : OptionBlock} :
    Decidable (ChooseSame files order extension f b) :=
  inferInstanceAs (Decidable (_ ∨ _))

instance : Decidable (Steady files order f) :=
  decidable_of_iff
    ((∀ r ∈ f.references, r.isFull ∨ r.resolve? ((poolBefore files f).surroundingsOf f) =
      r.resolve? ((poolBefore order f).surroundingsOf f)) ∧
      (∀ d ∈ f.services, ChooseSame files order serviceExtension f (d.optionBlock f)) ∧
      ∀ d ∈ f.services, ∀ m ∈ d.methods,
        ChooseSame files order operationExtension f (m.optionBlock (d.fullName f)))
    ⟨fun h => ⟨h.1, h.2.1, h.2.2⟩, fun h => ⟨h.references, h.services, h.methods⟩⟩

/-! ### Names that a file finds -/

theorem mem_definitions_of_poolBefore (hnames : (files.map (·.name)).Nodup)
    (hwhole : (build files).skipped = []) (hf : f ∈ files) {d : Definition}
    (hd : d ∈ ((poolBefore files f).surroundingsOf f).definitions) :
    d ∈ files.flatMap (·.definitions) := by
  obtain ⟨before, after, rfl⟩ := List.append_of_mem hf
  rw [poolBefore_eq hnames] at hd
  exact mem_definitions_of_surroundings hnames hwhole hd

theorem Steady.meansSame (hsteady : Steady files order f) (h : Reorders files order)
    (hf : f ∈ files) :
    ∀ r ∈ f.references, MeansSame ((poolBefore files f).surroundingsOf f)
      ((poolBefore order f).surroundingsOf f) r := by
  intro r hr
  rcases hsteady.references r hr with hfull | heq
  · refine Descriptor.Reference.meansSame_of_isFull hfull fun d hd d' hd' hname hentity => ?_
    have hmem : d ∈ files.flatMap (·.definitions) :=
      mem_definitions_of_poolBefore h.names h.whole hf hd
    have hmem' : d' ∈ order.flatMap (·.definitions) :=
      mem_definitions_of_poolBefore h.orderNames h.orderWhole (h.perm.mem_iff.mp hf) hd'
    -- both definitions are among those of the files, where a name belongs to one of them
    exact Definition.eq_of_agree (definitions_eq_and_agree h.names h.whole).2.2 hmem
      ((h.perm.flatMap_right _).mem_iff.mpr hmem') hname hentity
  · exact Descriptor.Reference.meansSame_of_eq heq

/-- The pools of two orders in which all files are steady have the same files, but for what options
    say. -/
theorem outlines_perm (h : Reorders files order) (hsteady : ∀ f ∈ files, Steady files order f) :
    ((build files).pool.files.map (·.outline)).Perm ((build order).pool.files.map (·.outline)) := by
  refine perm_map_of_forall₂ (forall₂_enters h.names h.whole)
    (forall₂_enters h.orderNames h.orderWhole) h.perm fun f hf l l' hl hl' => ?_
  exact hl.fileFrom.outline_eq hl'.fileFrom ((hsteady f hf).meansSame h hf)

/-! ### What is found -/

/-- The files are steady in both orders, and no two extensions of a message have one number. -/
structure Interchangeable (files order : List Descriptor.File) : Prop where
  steady : ∀ f ∈ files, Steady files order f
  places : ((build files).pool.extensions.map Linked.Extension.place).Nodup

instance : Decidable (Interchangeable files order) :=
  decidable_of_iff ((∀ f ∈ files, Steady files order f) ∧
    ((build files).pool.extensions.map Linked.Extension.place).Nodup)
    ⟨fun h => ⟨h.1, h.2⟩, fun h => ⟨h.steady, h.places⟩⟩

section Orders

variable (h : Reorders files order) (hsame : Interchangeable files order)
include h hsame

theorem extensions_perm : (build files).pool.extensions.Perm (build order).pool.extensions := by
  have hperm := (outlines_perm h hsame.steady).flatMap_right (·.extensions)
  rwa [List.flatMap_map, List.flatMap_map] at hperm

theorem extensionOf?_eq_of_reorders (type : String) (number : Nat) :
    (build files).pool.extensionOf? type number = (build order).pool.extensionOf? type number := by
  rw [extensionOf?_eq h.names h.whole, extensionOf?_eq h.orderNames h.orderWhole]
  exact find?_key_perm (extensions_perm h hsame) hsame.places (type, (number : Int))

theorem outline?_eq_of_reorders (name : String) :
    ((build files).pool.message? name).map (·.outline) =
      ((build order).pool.message? name).map (·.outline) := by
  have hperm := (outlines_perm h hsame.steady).flatMap_right (·.messages)
  rw [List.flatMap_map, List.flatMap_map] at hperm
  have hmessages : ((build files).pool.messages.map (·.outline)).Perm
      ((build order).pool.messages.map (·.outline)) := by
    rwa [Pool.messages, Pool.messages, List.map_flatMap, List.map_flatMap]
  have hnodup : (((build files).pool.messages.map (·.outline)).map (·.fullName)).Nodup := by
    rw [List.map_map]
    exact nodup_messages h.names h.whole
  have hfound := find?_key_perm hmessages hnodup name
  rwa [List.find?_map, List.find?_map] at hfound

/-- The pools of both orders find the same. -/
theorem pool_alike : (build files).pool.Alike (build order).pool where
  types.fields? name := by
    have houtlines := congrArg (Option.map (·.fields)) (outline?_eq_of_reorders h hsame name)
    rwa [Option.map_map, Option.map_map] at houtlines
  types.extensionOf? := extensionOf?_eq_of_reorders h hsame
  extension? name :=
    find?_key_perm (extensions_perm h hsame) (nodup_extensions h.names h.whole) name

/-- Plain options choose the same name in both orders. -/
theorem ChooseSame.found_eq {extension : String} {b : OptionBlock}
    (hchoose : ChooseSame files order extension f b) (hf : f ∈ files)
    (htype : b.type ∈ choosingTypes)
    (hkept : ((poolBefore files f).kept? f b).isSome)
    (hkept' : ((poolBefore order f).kept? f b).isSome) :
    found files extension f b = found order extension f b := by
  rcases hchoose with heq | ⟨hplain, hplain'⟩
  · exact heq
  · obtain ⟨m, hm, hfits⟩ := hplain.fits
    obtain ⟨m', hm', hfits'⟩ := hplain'.fits
    obtain rfl := Option.some.inj (Option.mem_def.mp hm ▸ Option.mem_def.mp hm')
    have halike := pool_alike h hsame
    rw [found_eq_nameIn? h.names h.whole hf htype hkept hplain,
      found_eq_nameIn? h.orderNames h.orderWhole (h.perm.mem_iff.mp hf) htype hkept' hplain',
      nameIn?_of_fits hm hfits, nameIn?_of_fits hm hfits', halike.extension?]
    simp only [(halike.typesFor b.type).choice?]

end Orders

/-! ### Services and their methods -/

/-- Services and operations have the same chosen names. -/
structure SameNames (o o' : CustomOptions) : Prop where
  service : ∀ service, o.serviceName? service = o'.serviceName? service
  operation : ∀ service method, o.operationName? service method = o'.operationName? service method

theorem serviceName?_eq (files : List Descriptor.File) (service : String) :
    (build files).serviceName? service = ((build files).pool.service? service).bind fun v =>
      nameIn? files serviceExtension "google.protobuf.ServiceOptions" v.options := by
  unfold serviceName? nameIn?
  cases (build files).pool.extension? serviceExtension <;>
    cases (build files).pool.service? service <;> rfl

theorem operationName?_eq (files : List Descriptor.File) (service method : String) :
    (build files).operationName? service method =
      ((build files).pool.service? service).bind fun v =>
        (v.methods.find? (·.name == method)).bind fun w =>
          nameIn? files operationExtension "google.protobuf.MethodOptions" w.options := by
  unfold operationName? nameIn?
  cases (build files).pool.extension? operationExtension with
  | none =>
    cases (build files).pool.service? service with
    | none => rfl
    | some v => cases h : v.methods.find? (·.name == method) <;> simp [h]
  | some x => rfl

section Services

variable {service : String} {d : Descriptor.Service} {v : Linked.Service}

/-- A service that is found is a declared one. -/
theorem serviceFrom_of_service? (hnames : (files.map (·.name)).Nodup)
    (hwhole : (build files).skipped = []) (h : (build files).pool.service? service = some v) :
    v.fullName = (Text.dropStart? "." service).getD service ∧
      ∃ f ∈ files, ∃ d ∈ f.services,
        Pool.ServiceFrom ((poolBefore files f).kept? f) f d v := by
  obtain ⟨l, hl, hv⟩ := List.mem_flatMap.mp (List.mem_of_find?_eq_some h)
  obtain ⟨f, hf, hentered⟩ := exists_of_mem_right (forall₂_enters hnames hwhole) hl
  obtain ⟨d, hd, hfrom⟩ := exists_of_mem_right hentered.fileFrom.services hv
  exact ⟨by simpa using List.find?_some h, f, hf, d, hd, hfrom⟩

/-- A declared service is found by its full name. -/
theorem service?_of_declared (hnames : (files.map (·.name)).Nodup)
    (hwhole : (build files).skipped = []) (hf : f ∈ files) (hd : d ∈ f.services)
    (hname : d.fullName f = (Text.dropStart? "." service).getD service) :
    ∃ v, (build files).pool.service? service = some v ∧
      Pool.ServiceFrom ((poolBefore files f).kept? f) f d v := by
  obtain ⟨l, hl, hentered⟩ := exists_of_mem_right (forall₂_enters hnames hwhole).flip hf
  obtain ⟨v, hv, hfrom⟩ := exists_of_mem_right hentered.fileFrom.services.flip hd
  refine ⟨v, ?_, hfrom⟩
  exact (find?_key_eq_some_iff (nodup_services hnames hwhole)).mpr
    ⟨List.mem_flatMap.mpr ⟨l, hl, hv⟩, hfrom.fullName.trans hname⟩

/-- The same declared service is found in both orders, or none. -/
theorem service?_rel (h : Reorders files order) (service : String) :
    Option.Rel (fun v v' => ∃ f ∈ files, ∃ d ∈ f.services,
        Pool.ServiceFrom ((poolBefore files f).kept? f) f d v ∧
          Pool.ServiceFrom ((poolBefore order f).kept? f) f d v')
      ((build files).pool.service? service) ((build order).pool.service? service) := by
  cases hv : (build files).pool.service? service with
  | some v =>
    obtain ⟨hname, f, hf, d, hd, hfrom⟩ := serviceFrom_of_service? h.names h.whole hv
    obtain ⟨v', hv', hfrom'⟩ := service?_of_declared h.orderNames h.orderWhole
      (h.perm.mem_iff.mp hf) hd (hfrom.fullName.symm.trans hname)
    rw [hv']
    exact .some ⟨f, hf, d, hd, hfrom, hfrom'⟩
  | none =>
    cases hv' : (build order).pool.service? service with
    | none => exact .none
    | some v' =>
      obtain ⟨hname, f, hf, d, hd, hfrom⟩ := serviceFrom_of_service? h.orderNames h.orderWhole hv'
      obtain ⟨v, hfound, -⟩ := service?_of_declared h.names h.whole (h.perm.mem_iff.mpr hf) hd
        (hfrom.fullName.symm.trans hname)
      exact nomatch hv.symm.trans hfound

/-- The same declared method is found in what goes back to one service, or none. -/
theorem method?_rel {kept kept' : OptionBlock → Option (List UInt8)} {v' : Linked.Service}
    (hfrom : Pool.ServiceFrom kept f d v) (hfrom' : Pool.ServiceFrom kept' f d v')
    (method : String) :
    Option.Rel (fun w w' => ∃ m ∈ d.methods, Pool.MethodFrom kept (d.fullName f) m w ∧
        Pool.MethodFrom kept' (d.fullName f) m w')
      (v.methods.find? (·.name == method)) (v'.methods.find? (·.name == method)) := by
  have hmembers := (List.forall₂_and_left (p := (· ∈ d.methods)) _ _).mpr
    ⟨fun _ hm => hm, hfrom'.methods⟩
  refine find?_of_forall₂ (forall₂_comp hfrom.methods.flip hmembers
    fun w m w' hw hw' => ⟨m, hw'.1, hw, hw'.2⟩) fun w w' hrel => ?_
  obtain ⟨m, -, hw, hw'⟩ := hrel
  rw [hw.name, hw'.name]

end Services

/-- Services and operations have the same names in both orders. -/
theorem sameNames (h : Reorders files order) (hsame : Interchangeable files order) :
    SameNames (build files) (build order) where
  service service := by
    rw [serviceName?_eq, serviceName?_eq]
    refine bind_eq_of_rel (service?_rel h service) fun v v' hrel => ?_
    obtain ⟨f, hf, d, hd, hfrom, hfrom'⟩ := hrel
    have hfound := ((hsame.steady f hf).services d hd).found_eq h hsame hf List.mem_cons_self
      (Option.isSome_of_eq_some hfrom.options) (Option.isSome_of_eq_some hfrom'.options)
    rwa [found, found, hfrom.options, hfrom'.options] at hfound
  operation service method := by
    rw [operationName?_eq, operationName?_eq]
    refine bind_eq_of_rel (service?_rel h service) fun v v' hrel => ?_
    obtain ⟨f, hf, d, hd, hfrom, hfrom'⟩ := hrel
    refine bind_eq_of_rel (method?_rel hfrom hfrom' method) fun w w' hrel => ?_
    obtain ⟨m, hm, hw, hw'⟩ := hrel
    have hfound := ((hsame.steady f hf).methods d hd m hm).found_eq h hsame hf
      (List.mem_cons_of_mem _ List.mem_cons_self) (Option.isSome_of_eq_some hw.options)
      (Option.isSome_of_eq_some hw'.options)
    rwa [found, found, hw.options, hw'.options] at hfound

end CustomOptions

end GoBindings

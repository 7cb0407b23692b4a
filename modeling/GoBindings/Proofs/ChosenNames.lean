/-
  GoBindings/Proofs/ChosenNames.lean
  ==================================
  **Whose options choose a name.**

  A set of options chooses a name through an extension (`Pool.Chooses`) if the pool has the
  extension, the options hold one message under its number, and the field `name` of that
  message holds one text that is not empty. The pool finds a name exactly where options choose
  one (`Pool.chosenName?_eq_some_iff`).

  Declarations are looked up in the pool by name, while the pool may have left out files. Of
  files whose names differ, with services whose names differ, each service and each method still
  gets the name that its own options choose, as they were interpreted when its file was added
  (`CustomOptions.chosenBy_toService`), and none if its file was left out
  (`CustomOptions.not_mem_of_skipped`).
-/
import GoBindings.Proofs.Pools
import GoBindings.Proofs.RuntimeNames
import GoBindings.Proofs.Shapes
import Mathlib.Data.List.Pairwise

namespace GoBindings

open Descriptor (qualify)

/-! ### Options that choose a name -/

/-- Options of a type choose a name through an extension. -/
structure Pool.Chooses (p : Pool) (extension type : String) (options : List UInt8)
    (name : String) : Prop where
  holds : ∃ x r f inner fields,
    p.extension? extension = some x ∧
      (p.typesFor type).read? type options = some r ∧
      (p.typesFor type).field? type x.field.number.toNat = some f ∧
      f.repeated = false ∧ f.kind.message? = some inner ∧
      r.value? x.field.number.toNat = some (.message fields) ∧
      ∃ m g content,
        (p.typesFor type).message? inner = some m ∧
          m.fields.find? (·.name == "name") = some g ∧
          g.repeated = false ∧ g.kind = .scalar .string ∧
          (p.typesFor type).valueIn fields g = .scalar (.bytes content) ∧
          Text.ofUtf8? content = some name
  nonempty : name ≠ ""

namespace Types

variable {t : Types} {type : String} {r : Record} {f : Linked.Field}

/-- A value that is not one of many is that of a field that holds one. -/
theorem singular_of_value? (hr : t.RecordFits type r) {n : Nat} {fields : Record}
    (hf : t.field? type n = some f) (hvalue : r.value? n = some (.message fields)) :
    f.repeated = false ∧ ∀ inner, f.kind.message? = some inner → t.RecordFits inner fields := by
  have hfits : t.Fits f (.message fields) := hr n _ f (Record.mem_of_value? hvalue) hf
  refine ⟨?_, fun inner hinner => fits_fields hfits hinner⟩
  cases hfits
  assumption

theorem singular_of_valueIn (ht : t.Numbered) (hr : t.RecordFits type r)
    {m : Linked.MessageType} (hm : t.message? type = some m) (hf : f ∈ m.fields)
    {payload : Wire.Payload} (hvalue : t.valueIn r f = .scalar payload) : f.repeated = false := by
  have hfits : t.Fits f (t.valueIn r f) := fits_valueIn ht hr (field?_of_mem ht hm hf)
  rw [hvalue] at hfits
  cases hfits
  assumption

end Types

namespace Pool

variable {p : Pool} {t : Types} {type inner extension : String} {options : List UInt8}
  {name : String} {fields : Record}

theorem nameIn?_eq_some_iff :
    nameIn? t inner fields = some name ↔ ∃ m g content, t.message? inner = some m ∧
      m.fields.find? (·.name == "name") = some g ∧ g.kind = .scalar .string ∧
      t.valueIn fields g = .scalar (.bytes content) ∧ Text.ofUtf8? content = some name := by
  constructor
  · intro h
    obtain ⟨m, hm, h⟩ := Option.bind_eq_some_iff.mp h
    obtain ⟨g, hg, h⟩ := Option.bind_eq_some_iff.mp h
    split at h
    case isTrue hkind =>
      split at h
      case h_1 content hvalue => exact ⟨m, g, content, hm, hg, hkind, hvalue, h⟩
      case h_2 => exact nomatch h
    case isFalse => exact nomatch h
  · rintro ⟨m, g, content, hm, hg, hkind, hvalue, htext⟩
    simp only [nameIn?, hm, hg, Option.bind_eq_bind, Option.bind_some, hkind, if_true, hvalue,
      htext]

theorem chosenName?_eq_some_iff (ht : (p.typesFor type).Numbered) {x : Linked.Extension}
    (hx : p.extension? extension = some x) :
    p.chosenName? x.field.number.toNat type options = some name ↔
      p.Chooses extension type options name := by
  constructor
  · intro h
    obtain ⟨r, hr, h⟩ := Option.bind_eq_some_iff.mp h
    obtain ⟨f, hf, h⟩ := Option.bind_eq_some_iff.mp h
    obtain ⟨inner, hinner, h⟩ := Option.bind_eq_some_iff.mp h
    split at h
    case h_2 => exact nomatch h
    case h_1 fields hvalue =>
      rw [Option.filter_eq_some_iff] at h
      obtain ⟨hname, hnonempty⟩ := h
      obtain ⟨m, g, content, hm, hg, hkind, hcontent, htext⟩ := nameIn?_eq_some_iff.mp hname
      obtain ⟨hsingular, hfields⟩ :=
        Types.singular_of_value? (Types.recordFits_of_read? ht hr) hf hvalue
      have hone : g.repeated = false :=
        Types.singular_of_valueIn ht (hfields inner hinner) hm (List.mem_of_find?_eq_some hg)
          hcontent
      exact ⟨⟨x, r, f, inner, fields, hx, hr, hf, hsingular, hinner, hvalue, m, g, content, hm, hg,
        hone, hkind, hcontent, htext⟩, by simpa using hnonempty⟩
  · rintro ⟨⟨y, r, f, inner, fields, hy, hr, hf, -, hinner, hvalue, m, g, content, hm, hg, -,
      hkind, hcontent, htext⟩, hnonempty⟩
    obtain rfl := Option.some.inj (hx.symm.trans hy)
    have hname : nameIn? (p.typesFor type) inner fields = some name :=
      nameIn?_eq_some_iff.mpr ⟨m, g, content, hm, hg, hkind, hcontent, htext⟩
    simp only [chosenName?, hr, hf, hinner, hvalue, hname, Option.bind_eq_bind, Option.bind_some]
    simpa using hnonempty

end Pool

namespace StandardOptions

theorem types_numbered : types.Numbered where
  distinct := by decide +kernel
  natural := by decide +kernel
  extensions _ _ _ h := nomatch h

end StandardOptions

namespace CustomOptions

variable {files : List Descriptor.File} {service method name : String}

theorem types_numbered (files : List Descriptor.File) : (build files).pool.types.Numbered where
  distinct m hm := by
    obtain ⟨l, hl, hml⟩ := List.mem_flatMap.mp hm
    obtain ⟨before, f, after, -, hentered⟩ := entered_of_mem_files hl
    obtain ⟨d, -, hfrom⟩ := exists_of_mem_right hentered.fileFrom.messages hml
    exact hfrom.distinct
  natural m hm := by
    obtain ⟨l, hl, hml⟩ := List.mem_flatMap.mp hm
    obtain ⟨before, f, after, -, hentered⟩ := entered_of_mem_files hl
    obtain ⟨d, -, hfrom⟩ := exists_of_mem_right hentered.fileFrom.messages hml
    exact hfrom.natural
  extensions type n x h := by simpa using List.find?_some h

theorem typesFor_numbered (files : List Descriptor.File) (type : String) :
    ((build files).pool.typesFor type).Numbered := by
  unfold Pool.typesFor
  split
  · exact types_numbered files
  · exact StandardOptions.types_numbered

theorem serviceName?_eq_some_iff :
    (build files).serviceName? service = some name ↔
      ∃ v, (build files).pool.service? service = some v ∧
        (build files).pool.Chooses serviceExtension "google.protobuf.ServiceOptions" v.options
          name := by
  unfold serviceName?
  constructor
  · intro h
    obtain ⟨x, hx, h⟩ := Option.bind_eq_some_iff.mp h
    obtain ⟨v, hv, h⟩ := Option.bind_eq_some_iff.mp h
    exact ⟨v, hv, (Pool.chosenName?_eq_some_iff (typesFor_numbered files _) hx).mp h⟩
  · rintro ⟨v, hv, hchooses⟩
    obtain ⟨x, -, -, -, -, hx, -⟩ := hchooses.holds
    simp only [hx, hv, Option.bind_eq_bind, Option.bind_some]
    exact (Pool.chosenName?_eq_some_iff (typesFor_numbered files _) hx).mpr hchooses

theorem operationName?_eq_some_iff :
    (build files).operationName? service method = some name ↔
      ∃ v, (build files).pool.service? service = some v ∧
        ∃ w, v.methods.find? (·.name == method) = some w ∧
          (build files).pool.Chooses operationExtension "google.protobuf.MethodOptions" w.options
            name := by
  unfold operationName?
  constructor
  · intro h
    obtain ⟨x, hx, h⟩ := Option.bind_eq_some_iff.mp h
    obtain ⟨v, hv, h⟩ := Option.bind_eq_some_iff.mp h
    obtain ⟨w, hw, h⟩ := Option.bind_eq_some_iff.mp h
    exact ⟨v, hv, w, hw, (Pool.chosenName?_eq_some_iff (typesFor_numbered files _) hx).mp h⟩
  · rintro ⟨v, hv, w, hw, hchooses⟩
    obtain ⟨x, -, -, -, -, hx, -⟩ := hchooses.holds
    simp only [hx, hv, hw, Option.bind_eq_bind, Option.bind_some]
    exact (Pool.chosenName?_eq_some_iff (typesFor_numbered files _) hx).mpr hchooses

end CustomOptions

/-! ### Services as the pool finds them -/

def Pool.services (p : Pool) : List Linked.Service := p.files.flatMap (·.services)

/-- Looking up a service by a name finds the first one with this full name. -/
def Pool.FindsByFullName (p : Pool) (name : String) : Prop :=
  p.service? name = p.services.find? (·.fullName == name)

/-- Only a dot in front of a name is in the way. -/
theorem Pool.findsByFullName_of_dropStart? {name : String} (p : Pool)
    (h : Text.dropStart? "." name = none) : p.FindsByFullName name := by
  rw [FindsByFullName, service?, h, Option.getD_none]
  rfl

namespace CustomOptions

variable {files : List Descriptor.File} {f : Descriptor.File} {l : Linked.File}

/-- The services of a file that is not left out are in the pool, with the options kept of it. -/
theorem serviceFrom_of_not_skipped (hnames : (files.map (·.name)).Nodup) (hf : f ∈ files)
    (h : (build files).skipped? f.name = .none) :
    ∃ l ∈ (build files).pool.files,
      List.Forall₂ (Pool.ServiceFrom ((poolBefore files f).kept? f) f) f.services l.services := by
  obtain ⟨before, after, rfl⟩ := List.append_of_mem hf
  rcases enters_or_skipped hnames with ⟨l, hl, -⟩ | ⟨r, hr⟩
  · refine ⟨l, mem_files_of_enters hl, ?_⟩
    rw [poolBefore_eq hnames]
    exact hl.fileFrom.services
  · exact nomatch h.symm.trans hr

/-- A service of a file that is left out has a name that no service of the pool has. -/
theorem not_mem_of_skipped (hnames : (files.map (·.name)).Nodup)
    (hservices : (files.flatMap (·.serviceNames)).Nodup) (hf : f ∈ files) {r : Rejection}
    (h : (build files).skipped? f.name = some r) {name : String} (hname : name ∈ f.serviceNames) :
    name ∉ (build files).pool.services.map (·.fullName) := by
  intro hmem
  obtain ⟨v, hv, rfl⟩ := List.mem_map.mp hmem
  obtain ⟨l, hl, hvl⟩ := List.mem_flatMap.mp hv
  obtain ⟨before, g, after, rfl, hentered⟩ := entered_of_mem_files hl
  have hne : f ≠ g := by
    rintro rfl
    rw [skipped?_eq hnames, hentered.add] at h
    exact nomatch h
  have hsymm : Std.Symm (Function.onFun List.Disjoint Descriptor.File.serviceNames) :=
    ⟨fun _ _ => List.disjoint_symm⟩
  have hdisjoint := (List.nodup_flatMap.mp hservices).2.forall hf (by simp) hne
  have hother : v.fullName ∈ g.serviceNames :=
    hentered.fileFrom.serviceNames ▸ List.mem_map_of_mem hvl
  exact hdisjoint hname hother

theorem service?_eq_some (hservices : (files.flatMap (·.serviceNames)).Nodup) {v : Linked.Service}
    (hv : v ∈ (build files).pool.services)
    (hfinds : (build files).pool.FindsByFullName v.fullName) :
    (build files).pool.service? v.fullName = some v := by
  have hnodup : ((build files).pool.services.map (·.fullName)).Nodup :=
    (serviceNames_sublist files).nodup hservices
  rw [hfinds]
  exact (find?_key_eq_some_iff hnodup).mpr ⟨hv, rfl⟩

end CustomOptions

/-! ### The names of a file -/

/-- The operation of a method has the name, if any, that the options kept of this method choose. -/
structure Operation.ChosenBy (p : Pool) (kept : Pool.OptionBlock → Option (List UInt8))
    (service : String) (m : Descriptor.Method) (op : Operation) : Prop where
  methodName : op.methodName = m.name
  chosenName : ∀ name, op.chosenName = some name ↔ ∃ options,
    kept (m.optionBlock service) = some options ∧
      p.Chooses operationExtension "google.protobuf.MethodOptions" options name

/-- A service has the name, if any, that the options kept of its own declaration choose, and so
    have its operations, method by method. -/
structure Service.ChosenBy (p : Pool) (kept : Pool.OptionBlock → Option (List UInt8))
    (f : Descriptor.File) (d : Descriptor.Service) (s : Service) : Prop where
  fullName : s.fullName = d.fullName f
  chosenName : ∀ name, s.chosenName = some name ↔ ∃ options,
    kept (d.optionBlock f) = some options ∧
      p.Chooses serviceExtension "google.protobuf.ServiceOptions" options name
  operations : List.Forall₂ (Operation.ChosenBy p kept (d.fullName f)) d.methods s.operations

namespace CustomOptions

variable {files : List Descriptor.File} {f : Descriptor.File} {d : Descriptor.Service}

theorem chosenBy_toService {kept : Pool.OptionBlock → Option (List UInt8)} {v : Linked.Service}
    (hfrom : Pool.ServiceFrom kept f d v)
    (hfound : (build files).pool.service? (d.fullName f) = some v)
    (hmethods : (d.methods.map (·.name)).Nodup) :
    Service.ChosenBy (build files).pool kept f d (d.toService (build files) f) where
  fullName := rfl
  chosenName name := by
    have hchosen : (d.toService (build files) f).chosenName =
        (build files).serviceName? (d.fullName f) := rfl
    rw [hchosen, serviceName?_eq_some_iff]
    simp only [hfound, Option.some.injEq, exists_eq_left', hfrom.options]
  operations := by
    have hnames : v.methods.map (·.name) = d.methods.map (·.name) := by
      rw [← List.forall₂_eq_eq_eq, List.forall₂_map_left_iff, List.forall₂_map_right_iff]
      exact hfrom.methods.flip.imp fun _ _ => Pool.MethodFrom.name
    refine List.forall₂_map_right_iff.mpr (List.forall₂_same.mpr fun m hm => ?_)
    obtain ⟨w, hw, hmw⟩ := exists_of_mem_right hfrom.methods.flip hm
    have hfind : v.methods.find? (·.name == m.name) = some w :=
      (find?_key_eq_some_iff (hnames ▸ hmethods)).mpr ⟨hw, hmw.name⟩
    refine ⟨rfl, fun name => ?_⟩
    have hchosen : (m.toOperation (build files) (d.fullName f)).chosenName =
        (build files).operationName? (d.fullName f) m.name := rfl
    rw [hchosen, operationName?_eq_some_iff]
    simp only [hfound, hfind, Option.some.injEq, exists_eq_left', hmw.options]

/-- A service that the pool does not find has no chosen names. -/
theorem chosenName_toService_of_none (h : (build files).pool.service? (d.fullName f) = .none) :
    (d.toService (build files) f).chosenName = .none ∧
      ∀ op ∈ (d.toService (build files) f).operations, op.chosenName = .none := by
  constructor
  · refine Option.eq_none_iff_forall_ne_some.mpr fun name hname => ?_
    obtain ⟨v, hv, -⟩ := serviceName?_eq_some_iff.mp hname
    exact nomatch h.symm.trans hv
  · intro op hop
    obtain ⟨m, -, rfl⟩ := List.mem_map.mp hop
    refine Option.eq_none_iff_forall_ne_some.mpr fun name hname => ?_
    obtain ⟨v, hv, -⟩ := operationName?_eq_some_iff.mp hname
    exact nomatch h.symm.trans hv

end CustomOptions

namespace Service

/-- Names are chosen by the right options: those of the service or method itself, as the pool
    interpreted them, and none in a file that was left out. -/
theorem chosen_by_own_options {files : List Descriptor.File} {f : Descriptor.File}
    {services : List Service} (hnames : (files.map (·.name)).Nodup)
    (hservices : (files.flatMap (·.serviceNames)).Nodup)
    (hfinds : ∀ name ∈ f.serviceNames, (CustomOptions.build files).pool.FindsByFullName name)
    (hf : f ∈ files) (h : (collect (CustomOptions.build files) f).outcome = .ok services) :
    (∀ r, (CustomOptions.build files).skipped? f.name = some r →
        ∀ s ∈ services, s.chosenName = none ∧ ∀ op ∈ s.operations, op.chosenName = none) ∧
      ((CustomOptions.build files).skipped? f.name = none →
        List.Forall₂ (ChosenBy (CustomOptions.build files).pool
          ((CustomOptions.poolBefore files f).kept? f) f) f.services services) := by
  have hmethods := nodup_of_collect h
  obtain rfl := collect_eq h
  refine ⟨fun r hr s hs => ?_, fun hkept => ?_⟩
  · obtain ⟨d, hd, rfl⟩ := List.mem_map.mp hs
    have hname : d.fullName f ∈ f.serviceNames := List.mem_map_of_mem hd
    refine CustomOptions.chosenName_toService_of_none ?_
    rw [hfinds _ hname, List.find?_eq_none]
    intro v hv heq
    refine CustomOptions.not_mem_of_skipped hnames hservices hf hr hname ?_
    exact beq_iff_eq.mp heq ▸ List.mem_map_of_mem hv
  · obtain ⟨l, hl, hfrom⟩ := CustomOptions.serviceFrom_of_not_skipped hnames hf hkept
    refine List.forall₂_map_right_iff.mpr (List.forall₂_same.mpr fun d hd => ?_)
    obtain ⟨v, hv, hdv⟩ := exists_of_mem_right hfrom.flip hd
    have hfound : (CustomOptions.build files).pool.service? (d.fullName f) = some v := by
      rw [← hdv.fullName]
      refine CustomOptions.service?_eq_some hservices (List.mem_flatMap.mpr ⟨l, hl, hv⟩) ?_
      exact hdv.fullName ▸ hfinds _ (List.mem_map_of_mem hd)
    exact CustomOptions.chosenBy_toService hdv hfound (hmethods d hd)

open Environment (bareFile)

/-- A message that holds a name. -/
def choice (name : String) : Descriptor.Message :=
  ⟨name, [⟨"name", 1, false, none, .scalar .string, "", none, none, none, none, false, []⟩], [], [],
    [], [], [], [], false, []⟩

/-- An extension whose values are such messages. -/
def choiceIn (name type extendee : String) : Descriptor.Field :=
  ⟨name, 52001, false, none, .message, type, some extendee, none, none, none, false, []⟩

/-- A shop that chooses names for its service and for one of its two operations. -/
def choosingShop : Descriptor.File :=
  { bareFile "shop.proto" "shop" with
    messages := [⟨"Cart", [], [], [], [], [], [], [], false, []⟩]
    services := [⟨"Shop",
      [⟨"Order", ".shop.Cart", ".shop.Cart", false, false,
          Wire.writeBytes 52001 (Wire.writeText 1 "order")⟩,
        ⟨"Cancel", ".shop.Cart", ".shop.Cart", false, false, []⟩],
      Wire.writeBytes 52001 (Wire.writeText 1 "shop")⟩] }

/-- The same shop under another name, which imports a file that is not there. -/
def hiddenShop : Descriptor.File :=
  { choosingShop with name := "store.proto", package := "store", dependencies := ["cart.proto"] }

def choosingFiles : List Descriptor.File :=
  [{ bareFile "google/protobuf/descriptor.proto" "google.protobuf" with
      messages := ["ServiceOptions", "MethodOptions"].map fun name =>
        ⟨name, [], [], [], [], [], [⟨1000, 536870912, []⟩], [], false, []⟩ },
    { bareFile "nexus/temporal/v1/options.proto" "nexus.temporal.v1" with
      dependencies := ["google/protobuf/descriptor.proto"]
      messages := [choice "ServiceChoice", choice "OperationChoice"]
      extensions :=
        [choiceIn "service" ".nexus.temporal.v1.ServiceChoice" ".google.protobuf.ServiceOptions",
          choiceIn "operation" ".nexus.temporal.v1.OperationChoice"
            ".google.protobuf.MethodOptions"] },
    choosingShop, hiddenShop]

/-- Both shops ask for the same names; the one that the pool has gets them. -/
theorem chosen_by_own_options_shops :
    ∃ shop store,
      (collect (CustomOptions.build choosingFiles) choosingShop).outcome = .ok [shop] ∧
        (collect (CustomOptions.build choosingFiles) hiddenShop).outcome = .ok [store] ∧
        shop.chosenName = some "shop" ∧
        shop.operations.map (·.chosenName) = [some "order", none] ∧
        List.Forall₂ (ChosenBy (CustomOptions.build choosingFiles).pool
          ((CustomOptions.poolBefore choosingFiles choosingShop).kept? choosingShop) choosingShop)
          choosingShop.services [shop] ∧
        store.chosenName = none ∧ ∀ op ∈ store.operations, op.chosenName = none := by
  have hfiles : ((choosingFiles.map (·.name)).Nodup ∧
      (choosingFiles.flatMap (·.serviceNames)).Nodup) := by decide +kernel
  have hmem : choosingShop ∈ choosingFiles ∧ hiddenShop ∈ choosingFiles := by
    simp [choosingFiles]
  have hshop : (collect (CustomOptions.build choosingFiles) choosingShop).outcome =
      .ok [⟨"shop.Shop", "Shop", "shop", "shop.proto", some "shop",
        [⟨"Order", ".shop.Cart", ".shop.Cart", some "order"⟩,
          ⟨"Cancel", ".shop.Cart", ".shop.Cart", none⟩]⟩] := by
    decide +kernel
  have hstore : (collect (CustomOptions.build choosingFiles) hiddenShop).outcome =
      .ok [⟨"store.Shop", "Shop", "store", "store.proto", none,
        [⟨"Order", ".shop.Cart", ".shop.Cart", none⟩,
          ⟨"Cancel", ".shop.Cart", ".shop.Cart", none⟩]⟩] := by
    decide +kernel
  have hskipped : (CustomOptions.build choosingFiles).skipped? "store.proto" =
      some .unresolvedName := by
    decide +kernel
  have hfinds : ∀ f ∈ choosingFiles, ∀ name ∈ f.serviceNames,
      (CustomOptions.build choosingFiles).pool.FindsByFullName name := by
    intro f hf name hname
    have hdots : ∀ f ∈ choosingFiles, ∀ name ∈ f.serviceNames, Text.dropStart? "." name = none := by
      decide +kernel
    exact Pool.findsByFullName_of_dropStart? _ (hdots f hf name hname)
  have hchosen := (chosen_by_own_options hfiles.1 hfiles.2 (hfinds _ hmem.1) hmem.1 hshop).2
    (by decide +kernel)
  have hnone := (chosen_by_own_options hfiles.1 hfiles.2 (hfinds _ hmem.2) hmem.2 hstore).1
    _ hskipped _ List.mem_cons_self
  exact ⟨_, _, hshop, hstore, rfl, rfl, hchosen, hnone⟩

end Service

end GoBindings

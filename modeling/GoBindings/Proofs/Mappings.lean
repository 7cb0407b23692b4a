/-
  GoBindings/Proofs/Mappings.lean
  ===============================
  **A mapping stands for a declaration.**

  A parameter that maps a file can do without that entry, if the file declares the Go package
  itself (`Settings.parse_without`). The Go package of a file is looked up in one place
  (`Descriptor.File.goPackageOf`), which does not tell the two apart, so the index is the same,
  and with it the package of each output, its name, the aliases in it and the claims that are
  made for it (`Environment.Rewrites.respond`).
-/
import GoBindings.Proofs.PackageClauses
import GoBindings.Proofs.ParameterOrder
import GoBindings.Proofs.RuntimeNames

namespace GoBindings

/-! ### Parameters without an entry -/

namespace Settings

variable {parameter shorter entry file path key value : String} {before after : List String}
  {look : String → Option String} {s : Settings} {pairs : List (String × String)}

theorem entries_intercalate {pieces : List String} (h : ∀ piece ∈ pieces, ',' ∉ piece.toList)
    (hne : pieces ≠ []) : entries (",".intercalate pieces) =
      (pieces.map Text.trim).filter fun entry => !entry.isEmpty := by
  have hcomma : ",".toList = [','] := rfl
  have hsplit : Text.split ',' (",".intercalate pieces) = pieces := by
    rw [Text.split, String.toList_intercalate, hcomma,
      List.splitOn_intercalate _ (by simpa using h) (by simpa using hne), List.map_map]
    simp
  rw [entries, hsplit]

/-- An entry can be taken out of a parameter. -/
theorem exists_entries_eq (h : entries parameter = before ++ entry :: after) :
    ∃ shorter, entries shorter = before ++ after := by
  obtain ⟨front, back, htrimmed, rfl, hback⟩ := List.filter_eq_append_iff.mp h
  obtain ⟨blanks, rest, rfl, hblanks, -, rfl⟩ := List.filter_eq_cons_iff.mp hback
  rw [← List.append_assoc] at htrimmed
  obtain ⟨pieces, others, hpieces, hfront, hothers⟩ := List.map_eq_append_iff.mp htrimmed
  obtain ⟨piece, later, rfl, -, rfl⟩ := List.map_eq_cons_iff.mp hothers
  have hcommas : ∀ other ∈ pieces ++ piece :: later, ',' ∉ other.toList :=
    fun other hother => Text.not_mem_of_mem_split (hpieces ▸ hother)
  rw [List.forall_mem_append, List.forall_mem_cons] at hcommas
  obtain ⟨hbefore, -, hafter⟩ := hcommas
  -- a blank piece is left where the entry stood
  refine ⟨",".intercalate (pieces ++ "" :: later), ?_⟩
  rw [entries_intercalate ?_ (by simp), List.map_append, hfront]
  · have hblank : (!(Text.trim "").isEmpty) = false := by decide
    have hskipped : blanks.filter (fun entry => !entry.isEmpty) = [] := by
      simpa using hblanks
    rw [List.map_cons, List.filter_append, List.filter_append, hskipped, List.append_nil,
      List.filter_cons_of_neg (by simp [hblank])]
  · rw [List.forall_mem_append, List.forall_mem_cons]
    exact ⟨hbefore, List.not_mem_nil, hafter⟩

theorem Says.unique {key' value' : String} (h : Says entry key value)
    (h' : Says entry key' value') : key = key' ∧ value = value' := by
  have heq := (keyValue_eq_ok_iff.mpr h).symm.trans (keyValue_eq_ok_iff.mpr h')
  exact Prod.mk.inj (Except.ok.inj heq)

theorem Accepted.of_cons {entries : List String} (h : Accepted (entry :: entries) pairs) :
    ∃ key value rest, pairs = (key, value) :: rest ∧ Says entry key value ∧
      (∃ c, Makes key value c) ∧ rest.lookup key = none ∧ Accepted entries rest := by
  obtain ⟨hsaid, hfits, hdistinct⟩ := h
  cases hsaid with
  | @cons _ pair _ rest hfirst hrest =>
    rw [List.map_cons, List.nodup_cons] at hdistinct
    refine ⟨pair.1, pair.2, rest, rfl, hfirst, hfits pair List.mem_cons_self, ?_,
      hrest, fun later hlater => hfits later (List.mem_cons_of_mem _ hlater), hdistinct.2⟩
    apply given_eq_none_iff.mpr
    intro later hlater hkey
    exact hdistinct.1 (hkey ▸ List.mem_map_of_mem hlater)

/-! ### Settings without a mapping -/

/-- The settings without the mapping of a file. -/
def without (s : Settings) (file : String) : Settings :=
  { s with importMappings := s.importMappings.filter (·.1 != file) }

theorem mapping?_without (s : Settings) (file name : String) :
    (s.without file).mapping? name = if name = file then none else s.mapping? name := by
  rw [mapping?, mapping?, without, lookup_eq_find?, lookup_eq_find?, List.find?_filter]
  split_ifs with hname
  · subst hname
    rw [Option.map_eq_none_iff, List.find?_eq_none]
    simp
  · congr 2
    funext m
    by_cases hm : m.1 = name
    · simp [hm, hname]
    · simp [hm]

theorem Chooses.without (h : Chooses look s) (hfile : file ≠ "") :
    Chooses (Function.update look ("M" ++ file) none) (s.without file) := by
  refine h.remap ?_ ?_ (h.sorted.sublist List.filter_sublist)
  · intro known hknown
    exact Function.update_of_ne (mapping_ne hknown hfile).symm _ _
  · intro other path
    rw [List.mem_filter, h.mapping, bne_iff_ne, Function.update_apply]
    by_cases hother : other = file
    · simp [hother]
    · simp [hother, String.append_right_inj]

theorem Chooses.mapping?_eq_some_iff (h : Chooses look s) :
    s.mapping? file = some path ↔ file ≠ "" ∧ look ("M" ++ file) = some path := by
  have hnodup : (s.importMappings.map (·.1)).Nodup :=
    List.pairwise_map.mpr (h.sorted.imp fun hless => ne_of_lt hless)
  rw [← h.mapping, mapping?, lookup_eq_find?, Option.map_eq_some_iff]
  constructor
  · rintro ⟨m, hm, rfl⟩
    obtain ⟨hmem, rfl⟩ := (find?_key_eq_some_iff hnodup).mp hm
    exact hmem
  · intro hmem
    exact ⟨(file, path), (find?_key_eq_some_iff hnodup).mpr ⟨hmem, rfl⟩, rfl⟩

theorem ne_empty_of_makes {c : Choice} (h : Makes ("M" ++ file) value c) :
    file ≠ "" ∧ value ≠ "" := by
  have hfile : file ≠ "" := by
    rintro rfl
    have hmaps : ¬ Maps ("M" ++ "") := mappedFile?_eq_none_iff.mp (by decide)
    have hnamed := (named_eq_ok_iff hmaps).mpr h
    simp [named, Template.key] at hnamed
  have hmapped := mappedFile?_eq_some_iff.mpr ⟨hfile, rfl⟩
  exact ⟨hfile, ((makes_iff_of_mappedFile? hmapped).mp h).1⟩

/-- Without an entry that maps a file, the parameter chooses the same but for the mapping. -/
theorem parse_without (hparse : parse (some parameter) = .ok s)
    (hentries : entries parameter = before ++ entry :: after)
    (hsaid : Says entry ("M" ++ file) path) :
    s.mapping? file = some path ∧ path ≠ "" ∧
      ∀ shorter, entries shorter = before ++ after →
        parse (some shorter) = .ok (s.without file) := by
  obtain ⟨pairs, haccepted, hcompatible, hchooses⟩ := parse_eq_ok_iff.mp hparse
  rw [hentries] at haccepted
  obtain ⟨pairs', haccepted', hgiven⟩ := haccepted.perm List.perm_middle
  obtain ⟨key, value, rest, rfl, hsaid', ⟨c, hmakes⟩, hnew, hrest⟩ := haccepted'.of_cons
  obtain ⟨rfl, rfl⟩ := hsaid'.unique hsaid
  obtain ⟨hfile, hpath⟩ := ne_empty_of_makes hmakes
  rw [← hgiven] at hcompatible hchooses
  refine ⟨hchooses.mapping?_eq_some_iff.mpr ⟨hfile, List.lookup_cons_self⟩, hpath, ?_⟩
  intro shorter hshorter
  have hlook : given rest =
      Function.update (given (("M" ++ file, value) :: rest)) ("M" ++ file) none := by
    rw [given_cons, Function.update_idem, Function.update_eq_self_iff.mpr hnew.symm]
  have hcompatible' : Compatible (given rest) := by
    unfold Compatible
    rw [hlook, Function.update_of_ne (mapping_ne (by decide) hfile).symm,
      Function.update_of_ne (mapping_ne (by decide) hfile).symm]
    exact hcompatible
  exact parse_eq_ok_iff.mpr
    ⟨rest, hshorter ▸ hrest, hcompatible', hlook ▸ hchooses.without hfile⟩

end Settings

/-! ### Files that declare what was mapped -/

/-- The file with another Go package, if it has this name. How its options are written down may
    differ as well. -/
def Descriptor.File.Redeclared (file declaration : String) (f g : Descriptor.File) : Prop :=
  ∃ options withinLimit, g = { f with
    goPackage := if f.name = file then declaration else f.goPackage
    options := options
    optionsWithinLimit := withinLimit }

section Redeclared

variable {file declaration : String} {f g : Descriptor.File} {files files' : List Descriptor.File}
  {settings : Settings}

theorem Descriptor.File.Redeclared.goPackageOf (h : f.Redeclared file declaration g)
    (hmapping : settings.mapping? file = some declaration) (hne : declaration ≠ "") :
    g.goPackageOf (settings.without file) = f.goPackageOf settings := by
  obtain ⟨options, withinLimit, rfl⟩ := h
  unfold goPackageOf package?
  rw [Settings.mapping?_without]
  by_cases hname : f.name = file
  · simp [hname, hmapping, hne]
  · simp [hname]

theorem Descriptor.File.Redeclared.name (h : f.Redeclared file declaration g) :
    g.name = f.name := by
  obtain ⟨options, withinLimit, rfl⟩ := h
  rfl

/-- The index does not tell whether a Go package is mapped or declared. -/
theorem TypeIndex.build_of_redeclared
    (h : List.Forall₂ (Descriptor.File.Redeclared file declaration) files files')
    (hmapping : settings.mapping? file = some declaration) (hne : declaration ≠ "") :
    build files' (settings.without file) = build files settings := by
  have hmessages : ∀ f g, f.Redeclared file declaration g →
      messagesOf settings f = messagesOf (settings.without file) g := by
    intro f g hfg
    unfold messagesOf
    rw [hfg.goPackageOf hmapping hne]
    obtain ⟨options, withinLimit, rfl⟩ := hfg
    rfl
  have henums : ∀ f g, f.Redeclared file declaration g →
      enumsOf settings f = enumsOf (settings.without file) g := by
    intro f g hfg
    unfold enumsOf
    rw [hfg.goPackageOf hmapping hne]
    obtain ⟨options, withinLimit, rfl⟩ := hfg
    rfl
  have hfiles : files.map (fun f => (f.name, f.goPackageOf settings)) =
      files'.map fun g => (g.name, g.goPackageOf (settings.without file)) := by
    rw [← List.forall₂_eq_eq_eq, List.forall₂_map_left_iff, List.forall₂_map_right_iff]
    refine h.imp fun f g hfg => ?_
    rw [hfg.name, hfg.goPackageOf hmapping hne]
  rw [build, build, flatMap_eq_of_forall₂ h hmessages, flatMap_eq_of_forall₂ h henums, hfiles]

/-- The index has the mapped package for a mapped file. -/
theorem TypeIndex.goPackage?_of_mapping (hmapping : settings.mapping? file = some declaration)
    (hf : f ∈ files) (hname : f.name = file) :
    (build files settings).goPackage? file = some (Go.Package.ofDeclaration declaration) := by
  have hfound : (files.find? (·.name == file)).isSome :=
    List.find?_isSome.mpr ⟨f, hf, beq_iff_eq.mpr hname⟩
  obtain ⟨g, hg⟩ := Option.isSome_iff_exists.mp hfound
  have hgname : g.name = file := by simpa using List.find?_some hg
  have hpackage : g.package? settings = some declaration := by
    rw [Descriptor.File.package?, hgname, hmapping, Option.some_or]
  rw [goPackage?_build, hg, Option.map_some, Descriptor.File.goPackageOf, hpackage]

/-! ### Services -/

theorem Service.collectFrom_congr (custom : CustomOptions) (hname : g.name = f.name)
    (hpackage : g.package = f.package) (index : Nat) (declared : List Descriptor.Service) :
    collectFrom custom g index declared = collectFrom custom f index declared := by
  induction declared generalizing index with
  | nil => rfl
  | cons d rest ih => simp only [collectFrom, ofDeclaration, hname, hpackage, ih]

theorem Service.collect_of_redeclared (custom : CustomOptions)
    (h : f.Redeclared file declaration g) : collect custom g = collect custom f := by
  have hservices : g.services = f.services ∧ g.package = f.package := by
    obtain ⟨options, withinLimit, rfl⟩ := h
    exact ⟨rfl, rfl⟩
  simp only [collect, reportUnavailable, h.name, hservices.1,
    collectFrom_congr custom h.name hservices.2]

theorem Service.nameOperations_without (s : Service) (settings : Settings) (file : String)
    (taken : Taken) (ops : List Operation) :
    s.nameOperations (settings.without file) taken ops = s.nameOperations settings taken ops := by
  induction ops generalizing taken with
  | nil => rfl
  | cons op rest ih =>
    have hop : s.nameOperation (settings.without file) taken op =
        s.nameOperation settings taken op := rfl
    simp only [nameOperations, hop, ih]

theorem Environment.nameServices_without (settings : Settings) (file : String)
    (services : List Service) :
    nameServices (settings.without file) services = nameServices settings services := by
  induction services with
  | nil => rfl
  | cons s rest ih => simp only [nameServices, Service.resolve, Service.nameOperations_without, ih]

end Redeclared

/-! ### Runs -/

/-- The second environment has the pool of the first, and its files declare what the first one
    maps. -/
structure Environment.Rewrites (file declaration : String) (env env' : Environment) : Prop where
  files : List.Forall₂ (Descriptor.File.Redeclared file declaration) env.files env'.files
  settings : env'.settings = env.settings.without file
  mapping : env.settings.mapping? file = some declaration
  ne_empty : declaration ≠ ""
  index : env'.index = env.index
  custom : env'.custom = env.custom
  compilerVersion : env'.compilerVersion = env.compilerVersion

namespace Environment.Rewrites

variable {file declaration : String} {env env' : Environment} {f g : Descriptor.File}
  (h : env.Rewrites file declaration env')
include h

theorem sourcePackage (hfg : f.Redeclared file declaration g) :
    env'.sourcePackage g = env.sourcePackage f := by
  rw [Environment.sourcePackage, Environment.sourcePackage, h.index, h.settings, hfg.name,
    hfg.goPackageOf h.mapping h.ne_empty]

theorem outputPackage (hfg : f.Redeclared file declaration g) :
    env'.outputPackage g = env.outputPackage f := by
  rw [Environment.outputPackage, Environment.outputPackage, h.sourcePackage hfg, h.settings]
  rfl

theorem generateServices (r : Registry) (hfg : f.Redeclared file declaration g)
    (services : List Service) :
    env'.generateServices r g services = env.generateServices r f services := by
  have hname (source output : Go.Package) :
      Placement.outputName f.name source output env'.settings =
        Placement.outputName f.name source output env.settings := by
    rw [h.settings]
    rfl
  have hnames : nameServices env'.settings services = nameServices env.settings services := by
    rw [h.settings, nameServices_without]
  simp only [Environment.generateServices, h.outputPackage hfg, h.sourcePackage hfg, hname, hnames,
    h.index, h.compilerVersion, hfg.name]

theorem generateFile (r : Registry) (hfg : f.Redeclared file declaration g) :
    env'.generateFile r g = env.generateFile r f := by
  simp only [Environment.generateFile, h.custom, Service.collect_of_redeclared _ hfg,
    h.generateServices r hfg, hfg.name]

theorem attempt (r : Registry) (target : String) :
    env'.attempt r target = env.attempt r target := by
  have hfound := find?_of_forall₂ h.files fun f g hfg => congrArg (· == target) hfg.name.symm
  unfold Environment.attempt
  generalize env.files.find? (·.name == target) = found at hfound ⊢
  generalize env'.files.find? (·.name == target) = found' at hfound ⊢
  cases hfound with
  | none => rfl
  | some hfg => exact h.generateFile r hfg

theorem respond (targets : List String) : env'.respond targets = env.respond targets := by
  rw [Environment.respond, Environment.respond, settleAll_congr h.attempt, h.custom, h.index,
    h.files.length_eq]

end Environment.Rewrites

theorem Environment.rewrites_build {file declaration : String} {settings : Settings}
    {files files' : List Descriptor.File}
    (h : List.Forall₂ (Descriptor.File.Redeclared file declaration) files files')
    (hmapping : settings.mapping? file = some declaration) (hne : declaration ≠ "")
    (custom : CustomOptions) (version : Option CompilerVersion) :
    Rewrites file declaration { build files settings version with custom }
      { build files' (settings.without file) version with custom } where
  files := h
  settings := rfl
  mapping := hmapping
  ne_empty := hne
  index := TypeIndex.build_of_redeclared h hmapping hne
  custom := rfl
  compilerVersion := rfl

/-! ### Parameters that map a file -/

section Parameters

variable {parameter entry file declaration : String} {before after : List String}

/-- An entry of an accepted parameter that maps a file can be taken out, and what is left is
    accepted. If every file of that name then declares the Go package that it was mapped to, the
    index and the response are the same, whatever pool is used for both. In the index the file has
    the package that the entry gives. So a request can be edited, if the pool of its files stays
    the same. -/
theorem mapping_eq_declaration {settings : Settings}
    (hparse : Settings.parse (some parameter) = .ok settings)
    (hentries : Settings.entries parameter = before ++ entry :: after)
    (hsaid : Settings.Says entry ("M" ++ file) declaration) :
    (∃ shorter, Settings.entries shorter = before ++ after) ∧
      ∀ shorter, Settings.entries shorter = before ++ after →
        ∃ others, Settings.parse (some shorter) = .ok others ∧
          ∀ files files', List.Forall₂ (Descriptor.File.Redeclared file declaration) files files' →
            TypeIndex.build files' others = TypeIndex.build files settings ∧
            (∀ f ∈ files, f.name = file → (TypeIndex.build files settings).goPackage? file =
              some (Go.Package.ofDeclaration declaration)) ∧
            (∀ custom version targets,
              ({ Environment.build files' others version with custom }).respond targets =
                ({ Environment.build files settings version with custom }).respond targets) ∧
            ∀ (request : Request) (edited : List (List UInt8)),
              request.parameter = some parameter → readFiles request.files = .ok files →
              readFiles edited = .ok files' →
              CustomOptions.build files' = CustomOptions.build files →
                generate { request with parameter := some shorter, files := edited } =
                  generate request := by
  obtain ⟨hmapping, hne, hshorter⟩ := Settings.parse_without hparse hentries hsaid
  refine ⟨Settings.exists_entries_eq hentries, fun shorter hrest => ?_⟩
  refine ⟨settings.without file, hshorter shorter hrest, fun files files' hfiles => ?_⟩
  refine ⟨TypeIndex.build_of_redeclared hfiles hmapping hne,
    fun f hf hname => TypeIndex.goPackage?_of_mapping hmapping hf hname, ?_, ?_⟩
  · intro custom version targets
    exact (Environment.rewrites_build hfiles hmapping hne custom version).respond targets
  · intro request edited hparameter hread hedited hpool
    have hrewrites : Environment.Rewrites file declaration
        (Environment.build files settings request.compilerVersion)
        (Environment.build files' (settings.without file) request.compilerVersion) :=
      { Environment.rewrites_build hfiles hmapping hne (CustomOptions.build files)
          request.compilerVersion with custom := hpool }
    rw [generate, generate, hshorter shorter hrest, hparameter, hparse]
    simp only [hread, hedited, Traced.ofExcept_ok, pure_bind]
    exact hrewrites.respond request.targets

/-- A cart that declares this Go package, and a shop that refers to it. -/
def cartAndShop (goPackage : String) : List Descriptor.File :=
  let service (name : String) : Descriptor.Service :=
    ⟨name, [⟨"Order", ".cart.Cart", ".cart.Cart", false, false, []⟩], []⟩
  [{ Environment.bareFile "cart.proto" "cart" with
      messages := [⟨"Cart", [], [], [], [], [], [], [], false, []⟩]
      services := [service "Carts"]
      goPackage },
    { Environment.bareFile "shop.proto" "shop" with
      services := [service "Shop"]
      goPackage := "example.com/shop" }]

/-- The response to a request for both, with the pool of one cart. -/
def cartResponse (goPackage : String) (settings : Settings) : Traced Response :=
  let custom := CustomOptions.build (cartAndShop "example.com/cart")
  ({ Environment.build (cartAndShop goPackage) settings none with custom }).respond
    ["cart.proto", "shop.proto"]

/-- The names of the files that were generated. -/
def namesIn? (response : Traced Response) : Option (List (Option String)) :=
  response.outcome.toOption.map fun r => r.files.map (·.name)

/-- The cart is generated where it is mapped to, and where it declares to be. -/
theorem mapping_eq_declaration_basket :
    ∃ settings others,
      Settings.parse (some "Mcart.proto=example.com/moved;basket,file_suffix=.go") = .ok settings ∧
      Settings.parse (some "file_suffix=.go") = .ok others ∧
      cartResponse "example.com/moved;basket" others = cartResponse "example.com/cart" settings ∧
      (TypeIndex.build (cartAndShop "example.com/cart") settings).goPackage? "cart.proto" =
        some (Go.Package.ofDeclaration "example.com/moved;basket") ∧
      namesIn? (cartResponse "example.com/cart" settings) =
        some [some "example.com/moved/cart.go", some "example.com/shop/shop.go"] ∧
      namesIn? (cartResponse "example.com/cart" others) =
        some [some "example.com/cart/cart.go", some "example.com/shop/shop.go"] := by
  have hparse : Settings.parse (some "Mcart.proto=example.com/moved;basket,file_suffix=.go") =
      .ok { Settings.standard with
        fileSuffix := ".go", importMappings := [("cart.proto", "example.com/moved;basket")] } := by
    decide +kernel
  have hparse' : Settings.parse (some "file_suffix=.go") =
      .ok { Settings.standard with fileSuffix := ".go" } := by
    decide +kernel
  have hentries : Settings.entries "Mcart.proto=example.com/moved;basket,file_suffix=.go" =
      [] ++ "Mcart.proto=example.com/moved;basket" :: ["file_suffix=.go"] := by
    decide +kernel
  have hsaid : Settings.Says "Mcart.proto=example.com/moved;basket" ("M" ++ "cart.proto")
      "example.com/moved;basket" :=
    Settings.keyValue_eq_ok_iff.mp (by decide +kernel)
  have hfiles : List.Forall₂
      (Descriptor.File.Redeclared "cart.proto" "example.com/moved;basket")
      (cartAndShop "example.com/cart") (cartAndShop "example.com/moved;basket") :=
    .cons ⟨_, _, rfl⟩ (.cons ⟨_, _, rfl⟩ .nil)
  obtain ⟨-, hshorter⟩ := mapping_eq_declaration hparse hentries hsaid
  obtain ⟨others, hothers, hsame⟩ := hshorter "file_suffix=.go" (by decide +kernel)
  obtain rfl := Except.ok.inj (hparse'.symm.trans hothers)
  obtain ⟨-, hpackage, hrespond, -⟩ := hsame _ _ hfiles
  exact ⟨_, _, hparse, hparse', hrespond _ none ["cart.proto", "shop.proto"],
    hpackage _ List.mem_cons_self rfl, by decide +kernel, by decide +kernel⟩

end Parameters

end GoBindings

/-
  GoBindings/Proofs/PackageClauses.lean
  =====================================
  **Package clauses and directories.**

  Every output has its package's name in its package clause (`packageClause?_render`). The
  name is the one that the settings ask for. If they ask for none, it is the one that the
  declaration of the Go package gives, and otherwise it is made from the last element of
  the path (`packageName_eq`). What a declaration gives is made into a name in the same way
  (`Descriptor.File.name_eq_sanitize`).

  Files of one directory have one path, so they have one package clause where the clause is
  made from the path. A declaration may give a name besides the path, and nothing compares
  the names that different files give: `Request.discord` has two packages in one directory.
-/
import GoBindings.Proofs.Bindings
import GoBindings.Proofs.Directories

namespace GoBindings

open Placement (directoryOf?)
open Text (OneLine)

/-! ### Names of packages -/

namespace Go

theorem isName_of_isIdentifier {s : String} (h : isIdentifier s) : IsName s := by
  unfold isIdentifier at h
  split at h
  case h_1 => cases h
  case h_2 c cs hs =>
    simp only [Bool.and_eq_true] at h
    obtain ⟨⟨hfirst, hrest⟩, -⟩ := h
    have hc : isNameChar c := by
      rw [isNameChar, isAlphanumeric, Bool.or_right_comm, hfirst, Bool.true_or]
    constructor
    · rintro rfl
      cases hs
    · rw [hs, List.forall_mem_cons]
      exact ⟨hc, List.all_eq_true.mp hrest⟩

namespace Package

/-- The name that a declaration gives besides the path. A blank one counts as none. -/
def explicitName? (declaration : String) : Option String :=
  (Text.cutFirst? ';' declaration).bind fun cut =>
    if (Text.trim cut.2).isEmpty then none else some (sanitize (Text.trim cut.2))

/-- What that name is made from. -/
def explicitText? (declaration : String) : Option String :=
  ((Text.cutFirst? ';' declaration).map fun cut => Text.trim cut.2).filter (!·.isEmpty)

theorem explicitName?_eq_map (declaration : String) :
    explicitName? declaration = (explicitText? declaration).map sanitize := by
  unfold explicitName? explicitText?
  cases Text.cutFirst? ';' declaration with
  | none => rfl
  | some cut =>
    by_cases hblank : Text.trim cut.2 = ""
    · simp [Option.filter, hblank]
    · simp [Option.filter, hblank]

theorem name_atPath (path : String) :
    (atPath path).name = sanitize (Text.afterLast '/' (atPath path).importPath) := by
  simp only [atPath]

theorem name_ofDeclaration (declaration : String) :
    (ofDeclaration declaration).name = (explicitName? declaration).getD
      (sanitize (Text.afterLast '/' (ofDeclaration declaration).importPath)) := by
  unfold ofDeclaration explicitName?
  cases Text.cutFirst? ';' declaration with
  | none => simp only [Option.bind_none, Option.getD_none, name_atPath]
  | some cut =>
    by_cases hblank : (Text.trim cut.2).isEmpty
    · simp only [Option.bind_some, if_pos hblank, Option.getD_none, name_atPath]
    · simp only [Option.bind_some, if_neg hblank, Option.getD_some]

theorem name_ofSourceName (file : String) :
    (ofSourceName file).name =
      sanitize (Text.afterLast '/' (ofSourceName file).importPath) := by
  unfold ofSourceName
  split
  case h_1 directory base _ =>
    by_cases hempty : directory.isEmpty
    · rw [if_pos hempty, name_atPath]
    · rw [if_neg hempty, name_atPath]
  case h_2 => exact name_atPath _

theorem name_renamed (p : Package) (name? : Option String) :
    (p.renamed name?).name = name?.getD p.name := by
  cases name? with
  | none => rw [renamed, Option.getD_none]
  | some name =>
    rw [renamed, Option.getD_some]
    split
    case isTrue hsame => exact hsame.symm
    case isFalse => rfl

end Package

end Go

/-- The package name that the declaration of the Go package of a file gives. -/
def Descriptor.File.explicitName? (f : Descriptor.File) (settings : Settings) : Option String :=
  (f.package? settings).bind Go.Package.explicitName?

theorem Descriptor.File.name_goPackageOf (f : Descriptor.File) (settings : Settings) :
    (f.goPackageOf settings).name = (f.explicitName? settings).getD
      (Go.sanitize (Text.afterLast '/' (f.goPackageOf settings).importPath)) := by
  unfold goPackageOf explicitName?
  cases f.package? settings with
  | none =>
    simp only [Option.bind_none, Option.getD_none]
    exact Go.Package.name_ofSourceName f.name
  | some declaration =>
    simp only [Option.bind_some]
    exact Go.Package.name_ofDeclaration declaration

/-- What the name of the Go package of a file is made from: what its declaration says behind the
    first semicolon, or else the last element of its import path. -/
def Descriptor.File.nameText (f : Descriptor.File) (settings : Settings) : String :=
  ((f.package? settings).bind Go.Package.explicitText?).getD
    (Text.afterLast '/' (f.goPackageOf settings).importPath)

theorem Descriptor.File.name_eq_sanitize (f : Descriptor.File) (settings : Settings) :
    (f.goPackageOf settings).name = Go.sanitize (f.nameText settings) := by
  have hmap : f.explicitName? settings =
      ((f.package? settings).bind Go.Package.explicitText?).map Go.sanitize := by
    rw [explicitName?, Option.map_bind]
    congr 1
    funext declaration
    exact Go.Package.explicitName?_eq_map declaration
  rw [name_goPackageOf, hmap, nameText, Option.getD_map]

theorem Settings.isIdentifier_of_package {parameter : Option String} {settings : Settings}
    (h : parse parameter = .ok settings) : ∀ name ∈ settings.package, Go.isIdentifier name := by
  refine parse_induction (P := fun s => ∀ name ∈ s.package, Go.isIdentifier name) ?_ ?_ h
  · intro name hname
    exact nomatch hname
  · intro s key value c hmakes hs
    cases hmakes with
    | package hidentifier =>
      rintro name ⟨⟩
      exact hidentifier
    | template | fileSuffix | module | importPath | sourceRelative | mapping => exact hs

/-! ### Package clauses -/

/-- The name in the package clause of a Go file: on the first line that begins with the
    keyword. -/
def packageClause? (content : String) : Option String :=
  (Text.split '\n' content).findSome? (Text.dropStart? "package ")

namespace Document

/-- The comments above the package clause. -/
def preamble (d : Document) : List String :=
  ["// Code generated by " ++ generatorName ++ ". DO NOT EDIT.", "// versions:"]
    ++ d.versionLines ++ ["// source: " ++ d.source, ""]

theorem lines_eq_preamble (d : Document) : ∃ rest,
    d.lines = d.preamble ++ ("package " ++ d.packageName) :: rest := by
  refine ⟨["", "import ("] ++ d.imports.sorted.map importLine ++ [")"] ++ d.bodyLines, ?_⟩
  simp only [lines, headerLines, preamble, bodyLines, List.append_assoc, List.cons_append,
    List.nil_append]

/-- What holds of every comment and of the empty line holds of everything above the clause. -/
theorem forall_mem_preamble {P : String → Prop} {d : Document} (hempty : P "")
    (hsigned : P ("// Code generated by " ++ generatorName ++ ". DO NOT EDIT."))
    (hversions : P "// versions:")
    (hversion : P ("// \t" ++ generatorName ++ " v" ++ d.generatorVersion))
    (hcompiler : ∀ v ∈ d.compilerVersion, P ("// \tprotoc " ++ v))
    (hsource : P ("// source: " ++ d.source)) : ∀ line ∈ d.preamble, P line := by
  have hprotoc : ∀ line ∈ (d.compilerVersion.map fun v => "// \tprotoc " ++ v).toList, P line := by
    intro line hline
    rw [Option.mem_toList, Option.map_eq_some_iff] at hline
    obtain ⟨v, hv, rfl⟩ := hline
    exact hcompiler v hv
  simp only [preamble, versionLines, List.forall_mem_append, List.forall_mem_cons]
  exact ⟨⟨⟨hsigned, hversions, List.forall_mem_nil _⟩, ⟨hversion, List.forall_mem_nil _⟩, hprotoc⟩,
    hsource, hempty, List.forall_mem_nil _⟩

theorem dropStart?_preamble (d : Document) :
    ∀ line ∈ d.preamble, Text.dropStart? "package " line = none := by
  have hcomment : ∀ (start text : String), start.toList.head? = some '/' →
      Text.dropStart? "package " (start ++ text) = none := by
    intro start text hslash
    rw [Text.dropStart?_eq_none_iff]
    intro rest heq
    have hhead := congrArg (·.toList.head?) heq
    have hpackage : "package ".toList.head? = some 'p' := rfl
    simp only [String.toList_append, List.head?_append, hslash, hpackage, Option.some_or,
      Option.some_inj] at hhead
    exact absurd hhead (by decide)
  refine forall_mem_preamble ?_ ?_ ?_ ?_ (fun v _ => hcomment _ v rfl) (hcomment _ _ rfl)
  · decide
  · decide +kernel
  · decide +kernel
  · simp only [String.append_assoc]
    exact hcomment _ _ rfl

theorem oneLine_preamble {d : Document} (hsource : OneLine d.source)
    (hversion : OneLine d.generatorVersion) (hcompiler : ∀ v ∈ d.compilerVersion, OneLine v) :
    ∀ line ∈ d.preamble, OneLine line := by
  refine forall_mem_preamble ?_ ?_ ?_ ?_ ?_ ?_
  · decide
  · decide +kernel
  · decide +kernel
  · simp only [Text.oneLine_append, hversion, and_true]
    exact ⟨⟨Text.oneLine_ofList rfl, Text.oneLine_ofList rfl⟩, Text.oneLine_ofList rfl⟩
  · exact fun v hv => Text.oneLine_append.mpr ⟨Text.oneLine_ofList rfl, hcompiler v hv⟩
  · exact Text.oneLine_append.mpr ⟨Text.oneLine_ofList rfl, hsource⟩

/-- If the names above it stay in their comments, the package clause is that of the package. -/
theorem packageClause?_render {d : Document} (hpreamble : ∀ line ∈ d.preamble, OneLine line)
    (hname : Go.IsName d.packageName) : packageClause? d.render = some d.packageName := by
  obtain ⟨rest, hlines⟩ := d.lines_eq_preamble
  have hclause : OneLine ("package " ++ d.packageName) :=
    Text.oneLine_append.mpr ⟨Text.oneLine_ofList rfl, hname.oneLine⟩
  have hpieces : d.preamble.flatMap (Text.split '\n') = d.preamble := by
    rw [List.flatMap_congr fun line hline => Text.split_of_oneLine (hpreamble line hline),
      List.flatMap_singleton']
  have habove : d.preamble.findSome? (Text.dropStart? "package ") = none :=
    List.findSome?_eq_none_iff.mpr d.dropStart?_preamble
  rw [packageClause?, render_eq_unlines, Text.split_unlines, hlines, List.flatMap_append,
    List.flatMap_cons, hpieces, Text.split_of_oneLine hclause]
  simp only [List.append_assoc, List.singleton_append, List.findSome?_append, habove,
    Option.none_or, List.findSome?_cons, Text.dropStart?_append, Option.some_or]

end Document

/-! ### Published files -/

/-- Of the files with a name, the first one gives the Go package. -/
theorem TypeIndex.goPackage?_build (files : List Descriptor.File) (settings : Settings)
    (name : String) : (build files settings).goPackage? name =
      (files.find? (·.name == name)).map (·.goPackageOf settings) := by
  unfold goPackage? build
  induction files with
  | nil => rfl
  | cons f rest ih =>
    rw [List.map_cons, List.lookup_cons, List.find?_cons]
    by_cases hname : f.name = name
    · rw [beq_iff_eq.mpr hname, beq_iff_eq.mpr hname.symm]
      rfl
    · rw [beq_false_of_ne hname, beq_false_of_ne (Ne.symm hname)]
      exact ih

namespace Environment

variable {env : Environment} {r : Registry} {targets : List String} {p q : Publication}

theorem sourcePackage_eq (hindex : env.Indexed) {f : Descriptor.File}
    (hfind : env.files.find? (·.name == f.name) = some f) :
    env.sourcePackage f = f.goPackageOf env.settings := by
  rw [sourcePackage, hindex, TypeIndex.goPackage?_build, hfind, Option.map_some,
    Option.getD_some]

theorem package_eq_outputPackage (hp : p ∈ env.published r targets) :
    p.draft.package = env.outputPackage p.draft.source := by
  obtain ⟨target, -, hpublication⟩ := exists_of_mem_published hp
  obtain ⟨-, hdraft, -⟩ := publication?_ok hpublication
  exact (draft_ok hdraft).2.1

/-- The output of a file belongs to the file's own Go package, under the name that the settings
    ask for. -/
theorem package_eq (hindex : env.Indexed) (hp : p ∈ env.published r targets) :
    p.draft.package = (p.draft.source.goPackageOf env.settings).renamed env.settings.package ∧
      p.document.packageName = p.draft.package.name := by
  obtain ⟨target, -, hpublication⟩ := exists_of_mem_published hp
  obtain ⟨-, hwritten⟩ := written_of_publication? hpublication
  refine ⟨?_, congrArg Document.packageName hwritten.document⟩
  rw [package_eq_outputPackage hp, outputPackage, sourcePackage_eq hindex hwritten.source]

/-- The name of a package whose declaration gives none is made from the path. -/
def ownName (env : Environment) (f : Descriptor.File) (path : String) : String :=
  (f.explicitName? env.settings).getD (Go.sanitize (Text.afterLast '/' path))

theorem packageName_eq (hindex : env.Indexed) (hp : p ∈ env.published r targets) :
    p.document.packageName =
      env.settings.package.getD (env.ownName p.draft.source p.draft.package.importPath) := by
  obtain ⟨hpackage, hname⟩ := package_eq hindex hp
  rw [hname, hpackage, Go.Package.name_renamed]
  cases env.settings.package with
  | some name => rw [Option.getD_some, Option.getD_some]
  | none =>
    rw [Option.getD_none, Option.getD_none, Go.Package.renamed, ownName,
      Descriptor.File.name_goPackageOf]

theorem isName_packageName {parameter : Option String}
    (hparse : Settings.parse parameter = .ok env.settings) (hindex : env.Indexed)
    (hp : p ∈ env.published r targets) : Go.IsName p.document.packageName := by
  obtain ⟨hpackage, hname⟩ := package_eq hindex hp
  rw [hname, hpackage, Go.Package.name_renamed]
  cases hchosen : env.settings.package with
  | some name =>
    have hidentifier := Settings.isIdentifier_of_package hparse name hchosen
    exact Go.isName_of_isIdentifier hidentifier
  | none => exact Go.isName_goPackageOf p.draft.source env.settings

end Environment

namespace Request

variable {request : Request} {response : Response} {env : Environment}

theorem parse_of_environment? (h : request.environment? = .ok env) :
    Settings.parse request.parameter = .ok env.settings := by
  obtain ⟨settings, files, hsettings, -, rfl⟩ := environment?_eq_ok_iff.mp h
  exact hsettings

theorem compilerVersion_of_environment? (h : request.environment? = .ok env) :
    env.compilerVersion = request.compilerVersion.map (·.text) := by
  obtain ⟨settings, files, -, -, rfl⟩ := environment?_eq_ok_iff.mp h
  rfl

theorem packageClause?_of_published {p : Environment.Publication} (hp : p ∈ request.published)
    (hsource : OneLine p.draft.source.name)
    (hcompiler : ∀ v ∈ request.compilerVersion, OneLine v.text) :
    packageClause? p.document.render = some p.document.packageName := by
  obtain ⟨env, henv, hindex, hpublished, -, hwritten⟩ := written_of_mem_published hp
  refine Document.packageClause?_render (Document.oneLine_preamble ?_ ?_ ?_)
    (Environment.isName_packageName (parse_of_environment? henv) hindex hpublished)
  · rw [hwritten.document]
    exact hsource
  · rw [hwritten.document]
    exact Text.oneLine_ofList rfl
  · rw [hwritten.document]
    intro v hv
    rw [compilerVersion_of_environment? henv] at hv
    obtain ⟨version, hversion, rfl⟩ := Option.map_eq_some_iff.mp hv
    exact hcompiler version hversion

/-- With output placed by import paths, files of one directory are files of one import path. They
    have one package clause if the settings name the package, and otherwise exactly if the names
    agree that their declarations give, where the last element of the path stands in for a name
    that is not given. -/
theorem clauses_agree_iff (henv : request.environment? = .ok env)
    (hresponse : (generate request).outcome = .ok response)
    (hpaths : env.settings.paths = .importPath) :
    (response.files = request.published.map fun p =>
        ⟨some p.draft.name, none, some p.document.render⟩) ∧
      (∀ p ∈ request.published, OneLine p.draft.source.name →
        (∀ v ∈ request.compilerVersion, OneLine v.text) →
          packageClause? p.document.render = some p.document.packageName) ∧
      ∀ p ∈ request.published, ∀ q ∈ request.published,
        (directoryOf? p.draft.name = directoryOf? q.draft.name ↔
          p.draft.package.importPath = q.draft.package.importPath) ∧
        (directoryOf? p.draft.name = directoryOf? q.draft.name →
          (p.document.packageName = q.document.packageName ↔ env.settings.package ≠ none ∨
            env.ownName p.draft.source p.draft.package.importPath =
              env.ownName q.draft.source p.draft.package.importPath)) := by
  have hparse := parse_of_environment? henv
  have hindex := indexed_of_environment? henv
  have hpublished : request.published = env.published Registry.empty request.targets := by
    rw [published, henv]
  refine ⟨files_eq_published hresponse,
    fun p hp hsource hcompiler => packageClause?_of_published hp hsource hcompiler, ?_⟩
  intro p hp q hq
  rw [hpublished] at hp hq
  have hdirectory : directoryOf? p.draft.name = directoryOf? q.draft.name ↔
      p.draft.package.importPath = q.draft.package.importPath := by
    rw [Environment.package_eq_outputPackage hp, Environment.package_eq_outputPackage hq]
    exact Placement.directoryOf?_eq_iff_importPath hpaths
      (Settings.slash_not_mem_fileSuffix hparse) (Environment.outputName_of_mem_published hp)
      (Environment.outputName_of_mem_published hq)
  refine ⟨hdirectory, fun hsame => ?_⟩
  rw [Environment.packageName_eq hindex hp, Environment.packageName_eq hindex hq,
    ← hdirectory.mp hsame]
  cases env.settings.package with
  | some name => simp
  | none => simp

/-- Two files with services of their own, for the Go packages that are declared. -/
def neighbours (first second : String) : Request where
  targets := ["orders.proto", "shop.proto"]
  parameter := none
  compilerVersion := none
  files :=
    [sampleFile "orders.proto" "orders" first ["Order"] [("Orders", [("Place", ".orders.Order")])],
      sampleFile "shop.proto" "shop" second [] [("Shop", [("Sell", ".orders.Order")])]]

/-- Two declarations may give one path and different names. -/
def discord : Request := neighbours "example.com/gen;orders" "example.com/gen;shop"

/-- The output then has two packages in one directory. -/
theorem discord_two_clauses :
    (∃ settings, Settings.parse discord.parameter = .ok settings ∧
      settings.paths = .importPath) ∧
      ∃ response, (generate discord).outcome = .ok response ∧
        response.files.map (fun f => (f.name.bind directoryOf?, f.content.bind packageClause?)) =
          [(some "example.com/gen", some "orders"), (some "example.com/gen", some "shop")] := by
  have houtcome := generate_outcome_of_isOk (by decide +kernel : discord.environment?.isOk)
  have hnames : discord.published.all fun p => decide (OneLine p.draft.source.name) := by
    decide +kernel
  have hpublished : discord.published.map
      (fun p => (directoryOf? p.draft.name, some p.document.packageName)) =
        [(some "example.com/gen", some "orders"), (some "example.com/gen", some "shop")] := by
    decide +kernel
  refine ⟨⟨Settings.standard, rfl, rfl⟩, _, houtcome, ?_⟩
  rw [files_eq_published houtcome, List.map_map, ← hpublished]
  refine List.map_congr_left fun p hp => ?_
  have hclause := packageClause?_of_published hp
    (of_decide_eq_true (List.all_eq_true.mp hnames p hp)) fun v hv => nomatch hv
  simp only [Function.comp_apply, Option.bind_some, hclause]

/-- One declaration may give the name that the other leaves to the path. -/
def concord : Request := neighbours "example.com/go-api;go_api" "example.com/go-api"

theorem clauses_agree_iff_concord :
    ∃ p ∈ concord.published, ∃ q ∈ concord.published,
      p.draft.source.name ≠ q.draft.source.name ∧
        directoryOf? p.draft.name = directoryOf? q.draft.name ∧
        packageClause? p.document.render = packageClause? q.document.render := by
  have hchosen : concord.environment?.toOption.any fun env =>
      decide (env.settings.paths = .importPath) &&
        concord.published.any fun p => concord.published.any fun q =>
          decide (OneLine p.draft.source.name ∧ OneLine q.draft.source.name ∧
            p.draft.source.name ≠ q.draft.source.name ∧
            p.draft.package.importPath = q.draft.package.importPath ∧
            env.ownName p.draft.source p.draft.package.importPath =
              env.ownName q.draft.source p.draft.package.importPath) := by
    decide +kernel
  cases henv : concord.environment? with
  | error fault => rw [henv] at hchosen; exact nomatch hchosen
  | ok env =>
    rw [henv] at hchosen
    obtain ⟨hpaths, hany⟩ := (Bool.and_eq_true _ _).mp hchosen
    obtain ⟨p, hp, hany⟩ := List.any_eq_true.mp hany
    obtain ⟨q, hq, hpair⟩ := List.any_eq_true.mp hany
    obtain ⟨hsource, hsource', hne, hpath, hown⟩ := of_decide_eq_true hpair
    obtain ⟨-, hclause, hpairs⟩ :=
      clauses_agree_iff henv (generate_outcome henv) (of_decide_eq_true hpaths)
    obtain ⟨hdirectory, hagree⟩ := hpairs p hp q hq
    have hsame := hdirectory.mpr hpath
    refine ⟨p, hp, q, hq, hne, hsame, ?_⟩
    have hcompiler : ∀ v ∈ concord.compilerVersion, OneLine v.text := fun v hv => nomatch hv
    rw [hclause p hp hsource hcompiler, hclause q hq hsource' hcompiler,
      (hagree hsame).mpr (.inr hown)]

end Request

end GoBindings
